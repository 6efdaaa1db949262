import ZoneTables.Proofs.Database.Removals
import ZoneTables.Proofs.Retention.Lookback
import ZoneTables.Proofs.Retention.Trimming

/-!
# Which zones survive

A zone is kept if it may be, if the window leaves eras of it, if these can be
resolved and end one after the other, and if all rules of the policies that
they name can be resolved.  Policies are shared, and their rules are selected
for all zones together, but a policy that is needed keeps a rule, if one of its
rules ends no earlier than it starts.  So nothing else that the source holds has a
part in the fate of a zone.
-/

namespace ZoneTables

open Finding

/-- Whether each policy that the kept eras of a zone name has a rule that ends no
earlier than it starts, as all rules do that are read. -/
def Source.HasRules (o : Options) (s : Source) (zone : String) : Prop :=
  ∀ sources, s.zones.get? zone = some sources →
    ∀ source ∈ (TrimmedZone.of o.window sources).kept, ∀ name,
      source.policy? = some name → ∀ rules, s.policies.get? name = some rules →
        ∃ r ∈ rules, r.fromYear ≤ r.toYear

theorem Source.IsProper.hasRules {s : Source} {openZone : Option String}
    (h : s.IsProper openZone) (o : Options) (zone : String) : s.HasRules o zone := by
  intro _ _ _ _ name _ rules hrules
  obtain ⟨hne, hproper⟩ := h.rules hrules
  obtain ⟨r, hr⟩ := List.exists_mem_of_ne_nil rules hne
  exact ⟨r, hr, (hproper r hr).years⟩

theorem Source.HasRules.restrict {o : Options} {s : Source} {zone : String}
    (h : s.HasRules o zone) : (s.restrict o).source.HasRules o zone :=
  fun sources hsources => h sources (get?_of_restrict hsources)

/-! ## The fate of a zone -/

def Source.resolves (o : Options) (s : Source) (name : String) : Bool :=
  (s.policies.get? name).any fun rules =>
    (resolvePolicy o.widths o.strict rules).result.isOk

def reviewUse (usable : String → Bool) (eras : List Era) : Review (List Era) :=
  match (eras.filterMap (·.saving.policy?)).find? fun policy =>
      !usable policy with
  | some policy => .remove (.policyRemoved policy)
  | none => .keep eras

/-- What becomes of the eras of a zone that may be kept: those that are left,
or the reason for which the zone goes. -/
def erasFate (o : Options) (usable : String → Bool)
    (sources : List SourceEra) : Except Removal (List Era) := do
  let kept ← ((TrimmedZone.of o.window sources).review o.window).result
  let eras ← (resolveZone o.widths o.strict kept).result
  (reviewUse usable eras).result

def zoneFate (o : Options) (zone : String) (usable : String → Bool)
    (sources : List SourceEra) : Except Removal (List Era) :=
  if o.includes zone then erasFate o usable sources else .error .notIncluded

section Use

variable {usable usable' : String → Bool} {eras : List Era}

theorem mem_policies_iff {name : String} :
    name ∈ eras.filterMap (·.saving.policy?) ↔
      ∃ era ∈ eras, era.saving = .policy name := by
  rw [List.mem_filterMap]
  refine exists_congr fun era => and_congr_right fun _ => ?_
  cases era.saving <;> simp [Saving.policy?]

theorem reviewUse_congr (h : ∀ era ∈ eras, ∀ name,
    era.saving = .policy name → usable name = usable' name) :
    reviewUse usable eras = reviewUse usable' eras := by
  have hnames : ∀ name ∈ eras.filterMap (·.saving.policy?),
      usable name = usable' name := by
    intro name hname
    obtain ⟨era, hera, hsaving⟩ := mem_policies_iff.1 hname
    exact h era hera name hsaving
  unfold reviewUse
  generalize eras.filterMap (·.saving.policy?) = names at hnames ⊢
  have hfind : (names.find? fun name => !usable name) =
      names.find? fun name => !usable' name := by
    induction names with
    | nil => rfl
    | cons name names ih =>
      rw [List.forall_mem_cons] at hnames
      rw [List.find?_cons, List.find?_cons, hnames.1, ih hnames.2]
  rw [hfind]

theorem reviewUse_eq_ok {kept : List Era} :
    (reviewUse usable eras).result = .ok kept ↔ kept = eras ∧
      ∀ era ∈ eras, ∀ name, era.saving = .policy name → usable name := by
  unfold reviewUse
  cases hfind : (eras.filterMap (·.saving.policy?)).find? fun policy =>
      !usable policy with
  | some name =>
    obtain ⟨era, hera, hsaving⟩ :=
      mem_policies_iff.1 (List.mem_of_find?_eq_some hfind)
    have hnot := List.find?_some hfind
    refine ⟨nofun, fun h => ?_⟩
    rw [h.2 era hera name hsaving] at hnot
    cases hnot
  | none =>
    rw [List.find?_eq_none] at hfind
    constructor
    · intro h
      cases h
      refine ⟨rfl, fun era hera name hsaving => ?_⟩
      simpa using hfind name (mem_policies_iff.2 ⟨era, hera, hsaving⟩)
    · rintro ⟨rfl, _⟩
      rfl

end Use

/-! ## Policies that are needed -/

theorem exists_policy_of_resolveZone {o : Options} {sources : List SourceEra}
    {eras : List Era} {name : String}
    (h : (resolveZone o.widths o.strict sources).result = .ok eras) :
    (∃ era ∈ eras, era.saving = .policy name) ↔
      ∃ source ∈ sources, source.policy? = some name := by
  have hall := (resolveZone_eq_ok.1 h).1
  have hpolicy : ∀ {source : SourceEra} {era : Era},
      (source.resolve o.widths o.strict).result = .ok era →
        (era.saving = .policy name ↔ source.policy? = some name) := by
    intro source era hresolve
    rw [← (SourceEra.resolvesTo_of_resolve hresolve).saving.policy?_eq]
    cases era.saving <;> simp [Saving.policy?]
  constructor
  · rintro ⟨era, hera, hsaving⟩
    obtain ⟨source, hsource, hresolve⟩ := forall₂_exists_left hall hera
    exact ⟨source, hsource, (hpolicy hresolve).1 hsaving⟩
  · rintro ⟨source, hsource, hname⟩
    obtain ⟨era, hera, hresolve⟩ := forall₂_exists_left hall.flip hsource
    exact ⟨era, hera, (hpolicy hresolve).2 hname⟩

theorem exists_mem_eraYears (stop startYear : Int) {era : Era}
    {eras : List Era} (hera : era ∈ eras) :
    ∃ y, (era, y) ∈ eraYears stop startYear eras := by
  induction eras generalizing startYear with
  | nil => exact absurd hera List.not_mem_nil
  | cons first rest ih =>
    rcases List.mem_cons.1 hera with rfl | hrest
    · exact ⟨_, List.mem_cons_self⟩
    · obtain ⟨y, hy⟩ := ih first.ends.year hrest
      exact ⟨y, List.mem_cons_of_mem _ hy⟩

theorem Options.simpleRules_eq_false {o : Options} (h : o.scope ≠ .basic) :
    o.widths.simpleRules = false := by
  unfold widths
  cases hscope : o.scope with
  | basic => exact absurd hscope h
  | extended => rfl
  | complete => rfl

section Needed

variable {o : Options} {s : Source} {zone name : String} {eras : List Era}

theorem Passes.contains_resolvedPolicies
    (hzone : (Passes.of o s).simpleZones.kept.get? zone = some eras) {era : Era}
    (hera : era ∈ eras) (hsaving : era.saving = .policy name) :
    (Passes.of o s).resolvedPolicies.kept.contains name = s.resolves o name := by
  have hused : (Zones.policyNames (Passes.of o s).simpleZones.kept).contains
      name := by
    rw [Zones.contains_policyNames]
    exact ⟨zone, eras, hzone, era, hera, by rw [hsaving]; rfl⟩
  rw [Bool.eq_iff_iff, NameMap.contains, Option.isSome_iff_exists,
    Source.resolves, Option.any_eq_true]
  simp only [Passes.get?_resolvedPolicies, hused, true_and, except_isOk_iff]
  constructor
  · rintro ⟨rules, sources, hsources, hresolve⟩
    exact ⟨sources, hsources, rules, hresolve⟩
  · rintro ⟨sources, hsources, rules, hresolve⟩
    exact ⟨rules, sources, hsources, hresolve⟩

theorem Passes.get?_simplePolicies (hsimple : o.widths.simpleRules = false)
    {rules : List Rule}
    (h : (Passes.of o s).selectedPolicies.kept.get? name = some rules) :
    (Passes.of o s).simplePolicies.kept.get? name = some rules := by
  refine NameMap.get?_kept_review.2 ⟨rules, h, ?_⟩
  rw [hsimple]
  rfl

/-- A policy that a usable zone names keeps a rule, which no check of simple
rules takes away. -/
theorem Passes.exists_simplePolicy (hsimple : o.widths.simpleRules = false)
    (hrules : s.HasRules o zone)
    (hzone : (Passes.of o s).usableZones.kept.get? zone = some eras) {era : Era}
    (hera : era ∈ eras) (hsaving : era.saving = .policy name) :
    ∃ rules, (Passes.of o s).simplePolicies.kept.get? name = some rules ∧
      ∃ r ∈ rules, r.isAnchor = false := by
  have hcontains := (get?_usableZones.1 hzone).2 era hera name hsaving
  obtain ⟨resolved, hresolved⟩ := Option.isSome_iff_exists.1 hcontains
  obtain ⟨sources, hsources, _, hresolve⟩ := get?_resolvedPolicies.1 hresolved
  have hall := resolvePolicy_eq_ok.1 hresolve
  obtain ⟨zoneSources, hzoneSources, _, hzoneResolve⟩ := exists_usableZone hzone
  obtain ⟨sourceEra, hsourceEra, hname⟩ :=
    (exists_policy_of_resolveZone hzoneResolve).1 ⟨era, hera, hsaving⟩
  obtain ⟨source, hsource, hyears⟩ :=
    hrules zoneSources hzoneSources sourceEra hsourceEra name hname sources hsources
  obtain ⟨r, hr, hsourceRule⟩ := forall₂_exists_left hall.flip hsource
  obtain ⟨_, rfl, _⟩ := SourceRule.resolve_eq_ok.1 hsourceRule
  obtain ⟨y, hy⟩ :=
    exists_mem_eraYears o.window.stop (o.window.start - 1) hera
  have hkept := RuleSelection.kept_ne_nil
    (mem_policyYears hzone hy hsaving) hr hyears
  obtain ⟨k, hk⟩ := List.exists_mem_of_ne_nil _ hkept
  refine ⟨_, get?_simplePolicies hsimple
    (get?_selectedPolicies.2 ⟨resolved, hresolved, hkept, rfl⟩), k,
    RuleSelection.mem_selected.2 (.inr hk), ?_⟩
  exact not_isAnchor_of_resolvePolicy hresolve k (RuleSelection.mem_kept.1 hk).1

end Needed

/-! ## Made databases -/

section Fate

variable {o : Options} {s : Source} {zone : String}
  {fate : Option (Except Removal (List SourceEra))} {found : List Finding}

theorem Passes.removalsOf_others (o : Options) (s : Source) (zone : String) :
    ∀ findings ∈ [(Passes.of o s).resolvedPolicies.findings,
        (Passes.of o s).usableLinks.findings,
        (Passes.of o s).selectedPolicies.findings,
        (Passes.of o s).simplePolicies.findings,
        (Passes.of o s).links.findings, (Passes.of o s).policies.findings],
      removalsOf .zone zone findings = [] := by
  have hpolicy : Subject.policy ≠ .zone := by decide
  have hlink : Subject.link ≠ .zone := by decide
  simp only [List.forall_mem_cons]
  exact ⟨NameMap.removalsOf_review_of_ne hpolicy _ _,
    NameMap.removalsOf_review_of_ne hlink _ _,
    NameMap.removalsOf_review_of_ne hpolicy _ _,
    NameMap.removalsOf_review_of_ne hpolicy _ _,
    NameMap.removalsOf_review_of_ne hlink _ _,
    NameMap.removalsOf_review_of_ne hpolicy _ _,
    fun _ h => absurd h List.not_mem_nil⟩

theorem map_erasFate (usable : String → Bool)
    (fate : Option (Except Removal (List SourceEra))) :
    (((fate.map (·.map fun eras => TrimmedZone.of o.window eras)).map
      (· >>= fun trimmed => (trimmed.review o.window).result)).map
      (· >>= fun eras => (resolveZone o.widths o.strict eras).result)).map
      (· >>= fun eras => (reviewUse usable eras).result) =
      fate.map (· >>= erasFate o usable) := by
  rcases fate with _ | _ | sources
  · rfl
  · rfl
  · simp only [Option.map_some, Except.map]
    congr 1
    exact bind_assoc _ _ _

/-- The passes tell of every zone what becomes of its eras of their own. -/
theorem Passes.tellsFate (hsimple : o.widths.simpleRules = false)
    (hrules : s.HasRules o zone) (h : TellsFate .zone zone fate s.zones found) :
    TellsFate .zone zone (fate.map (· >>= erasFate o (s.resolves o)))
      (Passes.of o s).zones.kept (found ++ (Passes.of o s).findings) := by
  have hinWindow : TellsFate .zone zone _ (Passes.of o s).inWindow.kept
      (found ++ (Passes.of o s).inWindow.findings) :=
    (h.map fun _ eras => TrimmedZone.of o.window eras).review fun _ _ => rfl
  have hresolved : TellsFate .zone zone _ (Passes.of o s).resolvedZones.kept
      (_ ++ (Passes.of o s).resolvedZones.findings) :=
    hinWindow.review fun _ _ => rfl
  have hsimpleZones : TellsFate .zone zone _ (Passes.of o s).simpleZones.kept
      (_ ++ (Passes.of o s).simpleZones.findings) :=
    hresolved.keep fun eras _ => by
      rw [hsimple]
      rfl
  have husable : TellsFate .zone zone _ (Passes.of o s).usableZones.kept
      (_ ++ (Passes.of o s).usableZones.findings) :=
    hsimpleZones.review (g := fun eras => (reviewUse (s.resolves o) eras).result)
      fun eras hzone => congrArg Review.result <| reviewUse_congr
        fun era hera name hsaving =>
          contains_resolvedPolicies hzone hera hsaving
  have hzones : TellsFate .zone zone _ (Passes.of o s).zones.kept
      (_ ++ (Passes.of o s).zones.findings) :=
    husable.keep fun eras hzone =>
      reviewUse_eq_ok.2 ⟨rfl, fun era hera name hsaving => by
        obtain ⟨rules, hget, _⟩ :=
          exists_simplePolicy hsimple hrules hzone hera hsaving
        exact Option.isSome_iff_exists.2 ⟨rules, hget⟩⟩
  have hothers := removalsOf_others o s zone
  simp only [List.forall_mem_cons] at hothers
  rw [← map_erasFate]
  apply hzones.of_removalsOf_eq
  simp [Passes.findings, hothers]

theorem Source.restrict_tellsFate (o : Options) (s : Source) (zone : String) :
    TellsFate .zone zone
      ((s.zones.get? zone).map fun sources =>
        if o.includes zone then .ok sources else .error .notIncluded)
      (s.restrict o).source.zones (s.restrict o).findings := by
  have hreview := (TellsFate.start .zone zone s.zones).review
    (f := fun name eras =>
      if o.includes name then .keep eras else .remove .notIncluded)
    (g := fun sources =>
      if o.includes zone then .ok sources else .error .notIncluded)
    fun sources _ => by split <;> rfl
  have hfate : ((s.zones.get? zone).map Except.ok).map
        (· >>= fun sources =>
          if o.includes zone then .ok sources else .error .notIncluded) =
      (s.zones.get? zone).map fun sources : List SourceEra =>
        (if o.includes zone then .ok sources else .error .notIncluded :
          Except Removal (List SourceEra)) := by
    cases s.zones.get? zone <;> rfl
  rw [hfate] at hreview
  have hlink : Subject.link ≠ .zone := by decide
  apply hreview.of_removalsOf_eq
  simp [Source.restrict, NameMap.removalsOf_review_of_ne hlink]

theorem Database.make_tellsFate (hsimple : o.widths.simpleRules = false)
    (hrules : s.HasRules o zone) :
    TellsFate .zone zone
      ((s.zones.get? zone).map (zoneFate o zone (s.resolves o)))
      (make o (s.restrict o).source (s.restrict o).findings).database.zones
      (make o (s.restrict o).source (s.restrict o).findings).findings := by
  have hpasses := Passes.tellsFate hsimple hrules.restrict
    (s.restrict_tellsFate o zone)
  have hfate : ((s.zones.get? zone).map fun sources =>
        (if o.includes zone then .ok sources else .error .notIncluded :
          Except Removal (List SourceEra))).map
        (· >>= erasFate o (s.resolves o)) =
      (s.zones.get? zone).map (zoneFate o zone (s.resolves o)) := by
    rw [Option.map_map]
    congr 1
    funext sources
    unfold zoneFate
    dsimp only [Function.comp_apply]
    split <;> rfl
  rw [← hfate]
  apply hpasses.of_removalsOf_eq
  unfold make
  dsimp only
  rw [removalsOf_append, removalsOf_anomalyFindings, List.append_nil]

end Fate

/-! ## What fates depend on -/

section Dependence

variable {o : Options} {s s' : Source} {zone name : String}
  {sources : List SourceEra} {eras : List Era}

theorem Source.resolves_iff :
    s.resolves o name ↔ ∃ rules, s.policies.get? name = some rules ∧
      ∀ rule ∈ rules, ∃ r, (rule.resolve o.widths o.strict).result = .ok r := by
  unfold resolves
  simp only [Option.any_eq_true, except_isOk_iff, resolvePolicy_eq_ok,
    exists_forall₂_iff]

theorem forall_policy_of_resolveZone {p : String → Prop}
    (h : (resolveZone o.widths o.strict sources).result = .ok eras) :
    (∀ era ∈ eras, ∀ name, era.saving = .policy name → p name) ↔
      ∀ source ∈ sources, ∀ name, source.policy? = some name → p name := by
  constructor
  · intro heras source hsource name hname
    obtain ⟨era, hera, hsaving⟩ :=
      (exists_policy_of_resolveZone h).2 ⟨source, hsource, hname⟩
    exact heras era hera name hsaving
  · intro hsources era hera name hsaving
    obtain ⟨source, hsource, hname⟩ :=
      (exists_policy_of_resolveZone h).1 ⟨era, hera, hsaving⟩
    exact hsources source hsource name hname

theorem erasFate_eq_ok {usable : String → Bool} :
    erasFate o usable sources = .ok eras ↔
      (TrimmedZone.of o.window sources).kept ≠ [] ∧
        List.Forall₂
          (fun source era => (source.resolve o.widths o.strict).result = .ok era)
          (TrimmedZone.of o.window sources).kept eras ∧
        (eras.Pairwise fun a b => a.ends.key < b.ends.key) ∧
        ∀ source ∈ (TrimmedZone.of o.window sources).kept,
          ∀ name, source.policy? = some name → usable name := by
  unfold erasFate
  simp only [except_bind_eq_ok, TrimmedZone.review_eq_ok, reviewUse_eq_ok]
  constructor
  · rintro ⟨_, ⟨hne, rfl⟩, _, hresolve, rfl, huse⟩
    obtain ⟨hall, horder⟩ := resolveZone_eq_ok.1 hresolve
    exact ⟨hne, hall, outOfOrder?_eq_none.1 horder,
      (forall_policy_of_resolveZone hresolve).1 huse⟩
  · rintro ⟨hne, hall, horder, huse⟩
    have hresolve := resolveZone_eq_ok.2 ⟨hall, outOfOrder?_eq_none.2 horder⟩
    exact ⟨_, ⟨hne, rfl⟩, eras, hresolve, rfl,
      (forall_policy_of_resolveZone hresolve).2 huse⟩

theorem zoneFate_eq_ok :
    zoneFate o zone (s.resolves o) sources = .ok eras ↔
      o.includes zone ∧ (TrimmedZone.of o.window sources).kept ≠ [] ∧
        List.Forall₂
          (fun source era => (source.resolve o.widths o.strict).result = .ok era)
          (TrimmedZone.of o.window sources).kept eras ∧
        (eras.Pairwise fun a b => a.ends.key < b.ends.key) ∧
        ∀ source ∈ (TrimmedZone.of o.window sources).kept,
          ∀ name, source.policy? = some name →
            ∃ rules, s.policies.get? name = some rules ∧ ∀ rule ∈ rules,
              ∃ r, (rule.resolve o.widths o.strict).result = .ok r := by
  simp only [← Source.resolves_iff, ← erasFate_eq_ok]
  unfold zoneFate
  by_cases hincluded : o.includes zone
  · rw [if_pos hincluded, and_iff_right hincluded]
  · rw [if_neg hincluded]
    exact ⟨nofun, fun h => absurd h.1 hincluded⟩

theorem zoneFate_congr (h : ∀ source ∈ sources, ∀ name,
    source.policy? = some name → s'.policies.get? name = s.policies.get? name) :
    zoneFate o zone (s'.resolves o) sources =
      zoneFate o zone (s.resolves o) sources := by
  have hresolves : ∀ source ∈ (TrimmedZone.of o.window sources).kept,
      ∀ name, source.policy? = some name →
        s'.resolves o name = s.resolves o name := by
    intro source hsource name hname
    obtain ⟨source', hsource', heq⟩ := TrimmedZone.exists_policy?_eq hsource
    unfold Source.resolves
    rw [h source' hsource' name (heq.trans hname)]
  unfold zoneFate erasFate
  congr 1
  cases hreview : ((TrimmedZone.of o.window sources).review o.window).result with
  | error why => rfl
  | ok kept =>
    obtain ⟨_, rfl⟩ := TrimmedZone.review_eq_ok.1 hreview
    cases hresolve : (resolveZone o.widths o.strict
        (TrimmedZone.of o.window sources).kept).result with
    | error why => simp only [hresolve, bind, Except.bind]
    | ok eras =>
      simp only [hresolve, bind, Except.bind]
      congr 1
      apply reviewUse_congr
      intro era hera name hsaving
      obtain ⟨source, hsource, hname⟩ :=
        (exists_policy_of_resolveZone hresolve).1 ⟨era, hera, hsaving⟩
      exact hresolves source hsource name hname

end Dependence

section Made

variable {o : Options} {s : Source} {db : Database}

theorem Database.zone_of_fate {zone : String} (hscope : o.scope ≠ .basic)
    (hrules : s.HasRules o zone) (h : (ofSource o s).result = .ok db) :
    db.zones.get? zone = ((s.zones.get? zone).map
        (zoneFate o zone (s.resolves o))).bind Except.toOption ∧
      db.comments.removedZones.get? zone = (((s.zones.get? zone).map
        (zoneFate o zone (s.resolves o))).bind removalReason?).map
          fun why => NameSet.insert .empty why.message := by
  obtain ⟨_, _, _, rfl⟩ := ofSource_eq_ok.1 h
  have hfate := make_tellsFate (Options.simpleRules_eq_false hscope) hrules
  exact ⟨hfate.value, hfate.get?_removals⟩

/-- Whether a source holds what a zone needs to be left with the given eras: it may
be kept, the window leaves eras of it, these can be resolved and end one after the
other, and all rules of the policies that they name can be resolved. -/
structure Source.Sustains (o : Options) (s : Source) (zone : String)
    (sources : List SourceEra) (eras : List Era) : Prop where
  included : o.includes zone
  source : s.zones.get? zone = some sources
  kept_ne_nil : (TrimmedZone.of o.window sources).kept ≠ []
  resolved : List.Forall₂
    (fun source era => (source.resolve o.widths o.strict).result = .ok era)
    (TrimmedZone.of o.window sources).kept eras
  ordered : eras.Pairwise fun a b => a.ends.key < b.ends.key
  rules : ∀ source ∈ (TrimmedZone.of o.window sources).kept,
    ∀ name, source.policy? = some name →
      ∃ rules, s.policies.get? name = some rules ∧ ∀ rule ∈ rules,
        ∃ r, (rule.resolve o.widths o.strict).result = .ok r

/-- Of a zone whose policies each have a rule that ends no earlier than it starts, a
database without simple rules holds what its source sustains; of each policy that
its eras name it holds a rule besides the anchor; and two sources that agree on the
eras of the zone and on the policies that they name leave the same of it, or remove
it for the same reason. -/
theorem Database.zone_survives_iff {zone : String} (hscope : o.scope ≠ .basic)
    (hrules : s.HasRules o zone) (h : (ofSource o s).result = .ok db) :
    (∀ eras, db.zones.get? zone = some eras ↔
      ∃ sources, s.Sustains o zone sources eras) ∧
    (∀ eras, db.zones.get? zone = some eras → ∀ era ∈ eras, ∀ name,
      era.saving = .policy name → ∃ rules, db.policies.get? name = some rules ∧
        ∃ r ∈ rules, r.isAnchor = false) ∧
    ∀ s' db', (ofSource o s').result = .ok db' →
      s'.zones.get? zone = s.zones.get? zone →
      (∀ sources, s.zones.get? zone = some sources → ∀ source ∈ sources,
        ∀ name, source.policy? = some name →
          s'.policies.get? name = s.policies.get? name) →
      db'.zones.get? zone = db.zones.get? zone ∧
        db'.comments.removedZones.get? zone =
          db.comments.removedZones.get? zone := by
  have hsimple := Options.simpleRules_eq_false hscope
  obtain ⟨hvalue, hreason⟩ := zone_of_fate hscope hrules h
  refine ⟨fun eras => ?_, fun eras hzone era hera name hsaving => ?_,
    fun s' db' h' hzones hpolicies => ?_⟩
  · simp only [hvalue, Option.bind_eq_some_iff, Option.map_eq_some_iff,
      except_toOption_eq_some]
    constructor
    · rintro ⟨_, ⟨sources, hsources, rfl⟩, hfate⟩
      obtain ⟨hincluded, hne, hall, horder, hresolve⟩ := zoneFate_eq_ok.1 hfate
      exact ⟨sources, hincluded, hsources, hne, hall, horder, hresolve⟩
    · rintro ⟨sources, hsustains⟩
      exact ⟨_, ⟨sources, hsustains.source, rfl⟩, zoneFate_eq_ok.2
        ⟨hsustains.included, hsustains.kept_ne_nil, hsustains.resolved,
          hsustains.ordered, hsustains.rules⟩⟩
  · obtain ⟨_, _, _, rfl⟩ := ofSource_eq_ok.1 h
    obtain ⟨rules, hsimplePolicy, hrule⟩ := Passes.exists_simplePolicy hsimple
      hrules.restrict (Passes.get?_zones.1 hzone).1 hera hsaving
    exact ⟨rules, Passes.get?_policies_of_zone hzone hera hsaving
      hsimplePolicy, hrule⟩
  -- the kept eras name no other policies than those on which the sources agree
  · have hrules' : s'.HasRules o zone := by
      intro sources hsources source hsource name hname rules hpolicy
      rw [hzones] at hsources
      obtain ⟨source', hsource', heq⟩ := TrimmedZone.exists_policy?_eq hsource
      rw [hpolicies sources hsources source' hsource' name (heq.trans hname)] at hpolicy
      exact hrules sources hsources source hsource name hname rules hpolicy
    obtain ⟨hvalue', hreason'⟩ := zone_of_fate hscope hrules' h'
    have hfate : (s'.zones.get? zone).map (zoneFate o zone (s'.resolves o)) =
        (s.zones.get? zone).map (zoneFate o zone (s.resolves o)) := by
      rw [hzones]
      cases hsources : s.zones.get? zone with
      | none => rfl
      | some sources =>
        rw [Option.map_some, Option.map_some,
          zoneFate_congr (hpolicies sources hsources)]
    rw [hvalue, hvalue', hreason, hreason', hfate]
    exact ⟨rfl, rfl⟩

end Made

def sharedPolicyText : SourceText where
  name := "t"
  text := oneRuleText.text ++
    "Z Y 1 P F%s 2001\n" ++
    " 2 - W\n" ++
    "Z X 1 P F%s 2001 Mar\n" ++
    " 2 - W 2001 Feb\n" ++
    " 3 - W\n" ++
    "R Q 2000 2001 - Feb 29 0 1 D\n" ++
    "Z V 1 Q F%s\n"

theorem zone_survives_iff_sharedPolicyText :
    ∃ db db', MadeFrom twoYears [oneRuleText] db ∧
      MadeFrom twoYears [sharedPolicyText] db' ∧
      db'.zones.keys = ["Y", "Z"] ∧
      db'.zones.get? "Z" = db.zones.get? "Z" ∧
      db'.comments.removedZones.get? "Z" =
        db.comments.removedZones.get? "Z" ∧
      ∃ eras, db'.zones.get? "Z" = some eras ∧ ∀ era ∈ eras, ∀ name,
        era.saving = .policy name →
          ∃ rules, db'.policies.get? name = some rules ∧
            ∃ r ∈ rules, r.isAnchor = false := by
  have hrun : (Source.empty.readTexts [] [oneRuleText]).fault = none ∧
      ∃ db ∈ (Database.ofSource twoYears
        (Source.empty.readTexts [] [oneRuleText]).source).result.toOption,
        db.zones.contains "Z" := by
    decide +kernel
  have hrun' : (Source.empty.readTexts [] [sharedPolicyText]).fault = none ∧
      (∃ db ∈ (Database.ofSource twoYears
        (Source.empty.readTexts [] [sharedPolicyText]).source).result.toOption,
        db.zones.keys = ["Y", "Z"] ∧ db.zones.contains "Z") ∧
      (Source.empty.readTexts [] [sharedPolicyText]).source.zones.get? "Z" =
        (Source.empty.readTexts [] [oneRuleText]).source.zones.get? "Z" ∧
      (Source.empty.readTexts [] [sharedPolicyText]).source.policies.get? "P" =
        (Source.empty.readTexts [] [oneRuleText]).source.policies.get? "P" := by
    decide +kernel
  have hpolicies : ∀ sources ∈
      (Source.empty.readTexts [] [oneRuleText]).source.zones.get? "Z",
      ∀ source ∈ sources, source.policy? = some "P" := by
    decide +kernel
  obtain ⟨hread, hmade⟩ := hrun
  obtain ⟨hread', hmade', hzones, hpolicy⟩ := hrun'
  obtain ⟨db, hdb, _⟩ := exists_eq_ok_of_toOption hmade
  obtain ⟨db', hdb', hkeys, hcontains⟩ := exists_eq_ok_of_toOption hmade'
  have hrules :=
    (Source.isProper_readTexts _ Source.IsProper.empty hread).hasRules twoYears "Z"
  have hrules' :=
    (Source.isProper_readTexts _ Source.IsProper.empty hread').hasRules twoYears "Z"
  have hextended : twoYears.scope ≠ .basic := by decide
  obtain ⟨_, _, hsame⟩ := Database.zone_survives_iff hextended hrules hdb
  obtain ⟨hvalue, hreason⟩ := hsame _ db' hdb' hzones
    fun sources hsources source hsource name hname => by
      rw [hpolicies sources hsources source hsource, Option.some.injEq] at hname
      rw [← hname, hpolicy]
  obtain ⟨eras, heras⟩ := Option.isSome_iff_exists.1 hcontains
  exact ⟨db, db', ⟨hread, hdb⟩, ⟨hread', hdb'⟩, hkeys, hvalue, hreason, eras,
    heras, (Database.zone_survives_iff hextended hrules' hdb').2.1 eras heras⟩

/-- The source with every rule changed, perhaps to one that is never read. -/
def Source.mapRules (f : SourceRule → SourceRule) (s : Source) : Source :=
  { s with policies := s.policies.map fun _ rules => rules.map f }

def reversedRuleSource : Source :=
  (Source.empty.readTexts [] [oneRuleText]).source.mapRules fun r =>
    { r with fromYear := 2100, toYear := 2001 }

/-- The source still sustains the zone of its reversed rule.  But no era needs such a
rule, and the zone goes with its policy. -/
theorem not_survives_reversedRuleSource :
    (∀ p ∈ reversedRuleSource.policies.entries, p.2 ≠ []) ∧
      ∃ db sources eras,
        (Database.ofSource twoYears reversedRuleSource).result = .ok db ∧
        reversedRuleSource.Sustains twoYears "Z" sources eras ∧
        db.zones.get? "Z" = none := by
  have hrun : (∀ p ∈ reversedRuleSource.policies.entries, p.2 ≠ []) ∧
      (∃ db ∈ (Database.ofSource twoYears reversedRuleSource).result.toOption,
        (db.zones.get? "Z").isNone) ∧
      ∃ sources ∈ reversedRuleSource.zones.get? "Z",
        (zoneFate twoYears "Z" (reversedRuleSource.resolves twoYears)
          sources).isOk := by
    decide +kernel
  obtain ⟨hne, hmade, sources, hsources, hfate⟩ := hrun
  obtain ⟨db, hdb, hnone⟩ := exists_eq_ok_of_toOption hmade
  obtain ⟨eras, hfate⟩ := except_isOk_iff.1 hfate
  obtain ⟨hincluded, hkept, hall, horder, hrules⟩ := zoneFate_eq_ok.1 hfate
  exact ⟨hne, db, sources, eras, hdb,
    ⟨hincluded, hsources, hkept, hall, horder, hrules⟩,
    Option.isNone_iff_eq_none.1 hnone⟩

end ZoneTables
