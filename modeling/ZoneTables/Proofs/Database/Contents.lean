import ZoneTables.Proofs.Database.Made

/-!
# What a made database holds

The entries of a database that was made of source texts: their fields are
proper, the eras of a zone follow each other up to one without an end, and
every policy or zone that is referred to is there.
-/

namespace ZoneTables

def Era.Joined (eras : List Era) : Prop :=
  ∃ front last, eras = front ++ [last] ∧
    (∀ era ∈ front, era.ends.isEndless = false) ∧ last.ends.isEndless = true

/-- Whether a database holds what the passes leave of a source. -/
structure MadeOf (o : Options) (s : Source) (db : Database) : Prop where
  proper : s.IsProper none
  start_lt : o.window.start < o.window.stop
  least_lt : Year.least < o.window.start
  stop_le : o.window.stop ≤ Year.endless
  zones : db.zones = (Passes.of o s).zones.kept
  policies : db.policies = (Passes.of o s).policies.kept
  links : db.links = (Passes.of o s).links.kept
  window : db.window = o.window
  widths : db.widths = o.widths
  strict : db.strict = o.strict

theorem MadeOf.of_ofSource {o : Options} {s : Source} {db : Database}
    (hs : s.IsProper none) (h : (Database.ofSource o s).result = .ok db) :
    MadeOf o (s.restrict o).source db := by
  obtain ⟨hwindow, _, _, hdb⟩ := Database.ofSource_eq_ok.1 h
  obtain ⟨hlt, hleast, hstop⟩ := Window.fault?_eq_none.1 hwindow
  subst hdb
  exact ⟨Source.isProper_restrict hs, hlt, hleast, hstop, rfl, rfl, rfl, rfl, rfl, rfl⟩

theorem MadeFrom.madeOf {o : Options} {texts : List SourceText}
    {db : Database} (h : MadeFrom o texts db) :
    MadeOf o ((Source.empty.readTexts [] texts).source.restrict o).source db :=
  .of_ofSource (Source.isProper_readTexts texts Source.IsProper.empty h.read) h.made

theorem MadeFrom.exists_source {o : Options} {texts : List SourceText}
    {db : Database} (h : MadeFrom o texts db) :
    ∃ s, MadeOf o s db ∧
      s.policies = (Source.empty.readTexts [] texts).source.policies :=
  ⟨_, h.madeOf, rfl⟩

theorem SourceUntil.isEndless_of_endsAs {w : Widths}
    {source : Option SourceUntil} {ends : Until}
    (hsource : ∀ u, source = some u → u.IsProper)
    (h : SourceUntil.EndsAs w source ends) :
    ends.isEndless = !source.isSome := by
  cases source with
  | none =>
    cases h
    rfl
  | some u =>
    obtain ⟨date, _, _, rfl⟩ := h
    have hle := (hsource u rfl).le_endless
    have hne : u.year ≠ Year.never := by
      unfold Year.endless at hle
      unfold Year.never
      omega
    exact beq_eq_false_iff_ne.2 hne

theorem Era.joined_of_resolveZone {w : Widths} {strict : Bool}
    {sources : List SourceEra} {eras : List Era}
    (hproper : ∀ source ∈ sources, source.IsProper)
    (hjoined : ErasJoined false sources)
    (h : (resolveZone w strict sources).result = .ok eras) :
    Era.Joined eras := by
  obtain ⟨front, last, rfl, hfront, hlast⟩ := hjoined
  obtain ⟨hall, _⟩ := resolveZone_eq_ok.1 h
  have hends : ∀ source ∈ front ++ [last], ∀ era : Era,
      (source.resolve w strict).result = .ok era →
        era.ends.isEndless = !source.ends.isSome := by
    intro source hmem era hera
    exact SourceUntil.isEndless_of_endsAs (hproper source hmem).ends
      (SourceEra.resolvesTo_of_resolve hera).ends
  have hfront' := List.forall₂_take_append eras front [last] hall.flip
  have hlast' := List.forall₂_drop_append eras front [last] hall.flip
  obtain ⟨last', rest, hresolve, hrest, hdrop⟩ :=
    List.forall₂_cons_right_iff.1 hlast'
  rw [List.forall₂_nil_right_iff] at hrest
  subst hrest
  refine ⟨eras.take front.length, last', ?_, fun era hera => ?_, ?_⟩
  · rw [← hdrop, List.take_append_drop]
  · obtain ⟨source, hmem, hsource⟩ := forall₂_exists_left hfront'.flip hera
    have hend := hends source (List.mem_append_left _ hmem) era hsource
    rw [hfront source hmem] at hend
    exact hend
  · have hend := hends last (List.mem_append_right _ List.mem_cons_self) last'
      hresolve
    rw [hlast] at hend
    exact hend

theorem Passes.isProper_usableZone {o : Options} {s : Source} {name : String}
    {eras : List Era} (hproper : s.IsProper none)
    (hget : (Passes.of o s).usableZones.kept.get? name = some eras) :
    ∀ era ∈ eras, era.IsProper o.widths := by
  obtain ⟨sources, hsource, _, hresolve⟩ := exists_usableZone hget
  have hkept : ∀ source ∈ (TrimmedZone.of o.window sources).kept,
      source.IsProper := TrimmedZone.isProper_kept (hproper.fields hsource)
  obtain ⟨hall, _⟩ := resolveZone_eq_ok.1 hresolve
  intro era hera
  obtain ⟨source, hmem, hresolved⟩ := forall₂_exists_left hall hera
  exact Era.isProper_of_resolvesTo (hkept source hmem)
    (SourceEra.resolvesTo_of_resolve hresolved)

namespace MadeOf

variable {o : Options} {s : Source} {db : Database} {name : String}

theorem window_usable (h : MadeOf o s db) :
    db.window.start < db.window.stop ∧ Year.least < db.window.start ∧
      db.window.stop ≤ Year.endless := by
  rw [h.window]
  exact ⟨h.start_lt, h.least_lt, h.stop_le⟩

theorem exists_zone (h : MadeOf o s db) {eras : List Era}
    (hget : db.zones.get? name = some eras) :
    ∃ sources, s.zones.get? name = some sources ∧
      (TrimmedZone.of o.window sources).kept ≠ [] ∧
      (resolveZone o.widths o.strict
        (TrimmedZone.of o.window sources).kept).result = .ok eras := by
  rw [h.zones] at hget
  exact Passes.exists_usableZone (Passes.get?_zones.1 hget).1

theorem joined (h : MadeOf o s db) {eras : List Era}
    (hget : db.zones.get? name = some eras) : Era.Joined eras := by
  obtain ⟨sources, hsource, hne, hresolve⟩ := h.exists_zone hget
  have hstart : o.window.start ≤ Year.endless := by
    have := h.start_lt
    have := h.stop_le
    omega
  exact Era.joined_of_resolveZone
    (TrimmedZone.isProper_kept (h.proper.fields hsource))
    (TrimmedZone.joined_kept (h.proper.joined hsource) hstart hne) hresolve

theorem era_isProper (h : MadeOf o s db) {eras : List Era}
    (hget : db.zones.get? name = some eras) :
    ∀ era ∈ eras, era.IsProper db.widths := by
  rw [h.zones] at hget
  rw [h.widths]
  exact Passes.isProper_usableZone h.proper (Passes.get?_zones.1 hget).1

theorem exists_policy (h : MadeOf o s db) {rules : List Rule}
    (hget : db.policies.get? name = some rules) :
    ∃ sources resolved, s.policies.get? name = some sources ∧
      (resolvePolicy o.widths o.strict sources).result = .ok resolved ∧
      rules = (RuleSelection.of (policyYears o.window
        (Passes.of o s).usableZones.kept name) resolved).selected o.window := by
  rw [h.policies] at hget
  obtain ⟨sources, resolved, hsource, hresolve, _, _, hrules⟩ :=
    Passes.exists_policy hget
  exact ⟨sources, resolved, hsource, hresolve, hrules⟩

theorem resolved_isProper (h : MadeOf o s db) {sources : List SourceRule}
    (hsource : s.policies.get? name = some sources) {resolved : List Rule}
    (hresolve : (resolvePolicy o.widths o.strict sources).result =
      .ok resolved) : ∀ r ∈ resolved, r.IsProper o.widths := by
  have hall := resolvePolicy_eq_ok.1 hresolve
  intro r hr
  obtain ⟨source, hmem, hresolved⟩ := forall₂_exists_left hall hr
  obtain ⟨_, rfl, _⟩ := SourceRule.resolve_eq_ok.1 hresolved
  exact SourceRule.isProper_resolved ((h.proper.rules hsource).2 source hmem)

theorem rule_isProper (h : MadeOf o s db) {rules : List Rule}
    (hget : db.policies.get? name = some rules) :
    ∀ r ∈ rules, r.IsProper db.widths := by
  obtain ⟨sources, resolved, hsource, hresolve, rfl⟩ := h.exists_policy hget
  rw [h.widths]
  exact RuleSelection.isProper_selected (h.resolved_isProper hsource hresolve)

theorem contains_policy (h : MadeOf o s db) {eras : List Era}
    (hget : db.zones.get? name = some eras) {era : Era} (hera : era ∈ eras)
    {policy : String} (hsaving : era.saving = .policy policy) :
    ∃ rules, db.policies.get? policy = some rules := by
  rw [h.zones] at hget
  rw [h.policies]
  have hcontains := (Passes.get?_zones.1 hget).2 era hera policy hsaving
  obtain ⟨rules, hrules⟩ := Option.isSome_iff_exists.1 hcontains
  exact ⟨rules, Passes.get?_policies_of_zone hget hera hsaving hrules⟩

theorem contains_target (h : MadeOf o s db) {target : String}
    (hget : db.links.get? name = some target) : db.zones.contains target := by
  rw [h.links] at hget
  rw [h.zones]
  exact (Passes.get?_links.1 hget).2

end MadeOf

end ZoneTables
