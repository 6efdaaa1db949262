import ZoneTables.Proofs.Database.Contents
import ZoneTables.Proofs.Retention.Nesting
import ZoneTables.Proofs.Retention.Trimming

/-!
# Where the records of a database come from

Every era and every rule of a database, anchors apart, is one of the source.
Times are cut to the granularity of their fields, days of ends become dates, and
dashes for no letter go; the last era of a zone that lost later ones loses its
end.  Nothing else changes on the way through the passes, and no record is used
twice.
-/

namespace ZoneTables

/-! ## Eras -/

structure SourceEra.IsAligned (w : Widths) (source : SourceEra) : Prop where
  stdOffset : w.stdOffset.truncate source.stdOffset = source.stdOffset
  saving : ∀ n, isAmountToken source.rules →
    Field.amount source.rules = .ok n → w.save.truncate n = n
  ends : ∀ u, source.ends = some u → w.time.truncate u.seconds = u.seconds

/-- Whether an era is given by one of the source; in strict reviews none of its
times is cut. -/
structure SourceEra.Gives (w : Widths) (strict : Bool) (source : SourceEra)
    (era : Era) : Prop where
  resolvesTo : source.ResolvesTo w era
  text : era.text = tableText source.origin.text
  aligned : strict → source.IsAligned w

/-- Whether eras are given by some of a zone of the source, in their order.  Those
behind the last one of them are cut off, and if there are such, then it has lost
its end. -/
def ErasFrom (w : Widths) (strict : Bool) (sources : List SourceEra)
    (eras : List Era) : Prop :=
  ∃ before last after front, sources = before ++ last :: after ∧
    front.Sublist before ∧
    List.Forall₂ (SourceEra.Gives w strict)
      (front ++ [if after.isEmpty then last else { last with ends := none }])
      eras

section Eras

variable {w : Widths} {strict : Bool} {source : SourceEra} {era : Era}

theorem SourceEra.gives_of_resolve
    (h : (source.resolve w strict).result = .ok era) :
    source.Gives w strict era := by
  refine ⟨resolvesTo_of_resolve h, ?_, fun hstrict => ?_⟩
  · unfold resolve at h
    simp only [Review.result_bind_eq_ok] at h
    obtain ⟨_, _, _, _, _, _, _, _, h⟩ := h
    cases h
    rfl
  · unfold resolve at h
    simp only [Review.result_bind_eq_ok, TimeWidth.result_fit_eq_ok] at h
    obtain ⟨_, ⟨_, hoffset⟩, _, hsaving, _, _, _, hends, _⟩ := h
    refine ⟨hoffset hstrict, fun n hamount hn => ?_, fun u hu => ?_⟩
    · have hrules : source.rules ≠ "-" := by
        intro hrules
        rw [hrules] at hamount
        revert hamount
        decide
      unfold resolveSaving at hsaving
      rw [if_neg hrules, if_pos hamount, hn] at hsaving
      dsimp only at hsaving
      rw [Review.result_bind_eq_ok] at hsaving
      obtain ⟨_, hfit, _⟩ := hsaving
      exact (TimeWidth.result_fit_eq_ok.1 hfit).2 hstrict
    · rw [hu] at hends
      unfold resolveUntil at hends
      dsimp only at hends
      split at hends
      · cases hends
      · split at hends
        · cases hends
        · rw [Review.result_bind_eq_ok] at hends
          obtain ⟨_, hfit, _⟩ := hends
          exact (TimeWidth.result_fit_eq_ok.1 hfit).2 hstrict

theorem exists_eq_append_of_sublist {α : Type} {front l : List α} {last : α}
    (h : (front ++ [last]).Sublist l) :
    ∃ before after, l = before ++ last :: after ∧ front.Sublist before := by
  obtain ⟨l₁, l₂, rfl, hfront, hlast⟩ := List.append_sublist_iff.1 h
  obtain ⟨s, t, rfl⟩ := List.mem_iff_append.1 (List.singleton_sublist.1 hlast)
  exact ⟨l₁ ++ s, t, (List.append_assoc _ _ _).symm,
    hfront.trans (List.sublist_append_left _ _)⟩

/-- The last of the eras that a window leaves has no end: as they are joined, it
is the last one of the zone or was given none. -/
theorem TrimmedZone.exists_kept_eq {window : Window} {sources : List SourceEra}
    (hjoined : ErasJoined false sources) (hstart : window.start ≤ Year.endless)
    (hne : (TrimmedZone.of window sources).kept ≠ []) :
    ∃ before last after front, sources = before ++ last :: after ∧
      front.Sublist before ∧ (TrimmedZone.of window sources).kept =
        front ++ [if after.isEmpty then last
          else { last with ends := none }] := by
  obtain ⟨front, opened, hkept, _, hopened⟩ := joined_kept hjoined hstart hne
  have hnone : opened.ends = none := by
    rwa [Option.isSome_eq_false_iff, Option.isNone_iff_eq_none] at hopened
  obtain ⟨last, hfrom, hlast⟩ : ∃ last,
      keptFrom window none sources = front ++ [last] ∧
        opened = { last with ends := none } := by
    rcases opens_kept window sources with heq | heq
    · exact ⟨opened, by rw [← heq, hkept], by rw [← hnone]⟩
    · rcases List.eq_nil_or_concat (keptFrom window none sources) with
        hnil | ⟨front', last, hconcat⟩
      · rw [hnil] at heq
        exact absurd heq hne
      · rw [List.concat_eq_append] at hconcat
        rw [hconcat, openLast_append, hkept] at heq
        obtain ⟨rfl, hlast⟩ := List.append_inj' heq rfl
        exact ⟨last, hconcat, List.singleton_inj.1 hlast⟩
  have hsublist := keptFrom_sublist window none sources
  rw [hfrom] at hsublist
  obtain ⟨before, after, heq, hfront⟩ := exists_eq_append_of_sublist hsublist
  refine ⟨before, last, after, front, heq, hfront, ?_⟩
  rw [hkept, hlast]
  cases after with
  | cons era after => rfl
  | nil =>
    obtain ⟨init, final, hsources, _, hfinal⟩ := hjoined
    obtain ⟨_, hsame⟩ := List.append_inj' (heq.symm.trans hsources) rfl
    rw [List.singleton_inj.1 hsame] at hlast ⊢
    rw [Option.isSome_eq_false_iff, Option.isNone_iff_eq_none] at hfinal
    rw [List.isEmpty_nil, if_pos rfl, ← hfinal]

theorem MadeOf.erasFrom {o : Options} {s : Source} {db : Database}
    (h : MadeOf o s db) {name : String} {eras : List Era}
    (hget : db.zones.get? name = some eras) :
    ∃ sources, s.zones.get? name = some sources ∧
      ErasFrom o.widths o.strict sources eras := by
  obtain ⟨sources, hsources, hne, hresolve⟩ := h.exists_zone hget
  have hstart : o.window.start ≤ Year.endless := by
    have := h.start_lt
    have := h.stop_le
    omega
  obtain ⟨before, last, after, front, heq, hfront, hkept⟩ :=
    TrimmedZone.exists_kept_eq (h.proper.joined hsources) hstart hne
  have hall := (resolveZone_eq_ok.1 hresolve).1
  rw [hkept] at hall
  exact ⟨sources, hsources, before, last, after, front, heq, hfront,
    hall.imp fun _ _ => SourceEra.gives_of_resolve⟩

theorem ErasFrom.endYear {sources : List SourceEra} {eras : List Era}
    (h : ErasFrom w strict sources eras) (hera : era ∈ eras) :
    era.ends.year = Year.never ∨
      ∃ source ∈ sources, source.endYear = era.ends.year := by
  obtain ⟨before, last, after, front, rfl, hfront, hall⟩ := h
  obtain ⟨source, hsource, hgives⟩ := forall₂_exists_left hall hera
  rw [SourceEra.endYear_eq hgives.resolvesTo]
  rcases List.mem_append.1 hsource with hsource | hsource
  · exact .inr ⟨source, List.mem_append_left _ (hfront.subset hsource), rfl⟩
  · rw [List.mem_singleton] at hsource
    subst hsource
    split
    · exact .inr ⟨last, by simp, rfl⟩
    · exact .inl rfl

end Eras

/-! ## Rules -/

structure SourceRule.IsAligned (w : Widths) (source : SourceRule) : Prop where
  time : w.time.truncate source.time = source.time
  save : w.save.truncate source.save = source.save

/-- Whether rules are given by some of a policy of the source, anchors apart: by
their first years, and in the order of the source where these are the same.  In
strict reviews none of their times is cut. -/
def RulesFrom (w : Widths) (strict : Bool) (sources : List SourceRule)
    (rules : List Rule) : Prop :=
  ∃ kept : List SourceRule, kept.Sublist sources ∧
    StablySorted (·.fromYear) (kept.map (·.resolved w))
      (rules.filter (!·.isAnchor)) ∧
    (strict → ∀ source ∈ kept, source.IsAligned w)

theorem MadeOf.rulesFrom {o : Options} {s : Source} {db : Database}
    (h : MadeOf o s db) {name : String} {rules : List Rule}
    (hget : db.policies.get? name = some rules) :
    ∃ sources, s.policies.get? name = some sources ∧
      RulesFrom o.widths o.strict sources rules := by
  obtain ⟨sources, resolved, hsources, hresolve, rfl⟩ := h.exists_policy hget
  have hall := resolvePolicy_eq_ok.1 hresolve
  have hmap : resolved = sources.map (·.resolved o.widths) := by
    rw [← List.forall₂_eq_eq_eq, List.forall₂_map_right_iff]
    exact hall.flip.imp fun r source hr =>
      (SourceRule.resolve_eq_ok.1 hr).2.1
  have haligned : o.strict → ∀ source ∈ sources,
      source.IsAligned o.widths := by
    intro hstrict source hsource
    obtain ⟨r, _, hr⟩ := forall₂_exists_left hall.flip hsource
    obtain ⟨_, _, hcut⟩ := SourceRule.resolve_eq_ok.1 hr
    exact ⟨(hcut hstrict).1, (hcut hstrict).2⟩
  obtain ⟨kept, hkept, heq⟩ := List.sublist_map_iff.1 (hmap ▸ List.filter_sublist :
    (RuleSelection.of (policyYears o.window
      (Passes.of o s).usableZones.kept name) resolved).kept.Sublist
      (sources.map (·.resolved o.widths)))
  refine ⟨sources, hsources, kept, hkept, ?_, fun hstrict source hsource =>
    haligned hstrict source (hkept.subset hsource)⟩
  rw [RuleSelection.filter_not_isAnchor_selected
    (not_isAnchor_of_resolvePolicy hresolve), heq]
  exact stablySorted_sortByKey _

theorem RulesFrom.exists_source {w : Widths} {strict : Bool}
    {sources : List SourceRule} {rules : List Rule}
    (h : RulesFrom w strict sources rules) {r : Rule} (hr : r ∈ rules)
    (hanchor : r.isAnchor = false) :
    ∃ source ∈ sources, r = source.resolved w := by
  obtain ⟨kept, hkept, hsorted, _⟩ := h
  have hmem : r ∈ rules.filter (!·.isAnchor) :=
    List.mem_filter.2 ⟨hr, by rw [hanchor]; rfl⟩
  rw [hsorted.perm.mem_iff, List.mem_map] at hmem
  obtain ⟨source, hsource, rfl⟩ := hmem
  exact ⟨source, hkept.subset hsource, rfl⟩

/-! ## Spans of years -/

namespace YearSpan

structure Covers (outer inner : YearSpan) : Prop where
  least : outer.least ≤ inner.least
  greatest : inner.greatest ≤ outer.greatest

theorem add_of_ordinary (span : YearSpan) {year : Int}
    (h : Year.isSentinel year = false) :
    span.add year = ⟨min span.least year, max span.greatest year⟩ := by
  unfold add
  rw [h]
  rfl

theorem covers_add (span : YearSpan) (year : Int) :
    (span.add year).Covers span := by
  unfold add
  split
  · exact ⟨Int.le_refl _, Int.le_refl _⟩
  · exact ⟨Int.min_le_left _ _, Int.le_max_left _ _⟩

theorem covers_foldl (years : List Int) (span : YearSpan) :
    (years.foldl add span).Covers span := by
  induction years generalizing span with
  | nil => exact ⟨Int.le_refl _, Int.le_refl _⟩
  | cons year years ih =>
    have hadd := covers_add span year
    have hrest := ih (span.add year)
    exact ⟨Int.le_trans hrest.least hadd.least,
      Int.le_trans hadd.greatest hrest.greatest⟩

theorem le_of_mem {years : List Int} {span : YearSpan} {year : Int}
    (hmem : year ∈ years) (h : Year.isSentinel year = false) :
    (years.foldl add span).least ≤ year ∧
      year ≤ (years.foldl add span).greatest := by
  obtain ⟨front, back, rfl⟩ := List.mem_iff_append.1 hmem
  rw [List.foldl_append, List.foldl_cons, add_of_ordinary _ h]
  have hcovers := covers_foldl back
    ⟨min (front.foldl add span).least year,
      max (front.foldl add span).greatest year⟩
  exact ⟨Int.le_trans hcovers.least (Int.min_le_right _ _),
    Int.le_trans (Int.le_max_right _ _) hcovers.greatest⟩

theorem Covers.foldl {outer : YearSpan} {years : List Int} {span : YearSpan}
    (h : outer.Covers span)
    (hyears : ∀ year ∈ years, Year.isSentinel year = false →
      outer.least ≤ year ∧ year ≤ outer.greatest) :
    outer.Covers (years.foldl add span) := by
  induction years generalizing span with
  | nil => exact h
  | cons year years ih =>
    rw [List.forall_mem_cons] at hyears
    rw [List.foldl_cons]
    apply ih _ hyears.2
    cases hyear : Year.isSentinel year with
    | true =>
      unfold add
      rwa [hyear]
    | false =>
      obtain ⟨hleast, hgreatest⟩ := hyears.1 hyear
      rw [add_of_ordinary _ hyear]
      exact ⟨Int.le_min.2 ⟨h.least, hleast⟩,
        Int.max_le.2 ⟨h.greatest, hgreatest⟩⟩

theorem covers_ofList {years years' : List Int}
    (h : ∀ year ∈ years', Year.isSentinel year = false → year ∈ years) :
    (ofList years).Covers (ofList years') :=
  (covers_foldl years empty).foldl fun year hmem hyear =>
    le_of_mem (h year hmem hyear) hyear

end YearSpan

theorem MadeOf.covers_years {o : Options} {s : Source} {db : Database}
    (h : MadeOf o s db) :
    s.years.Covers (tableYears db.zones db.policies) := by
  apply YearSpan.covers_ofList
  intro year hyear hordinary
  rw [List.mem_append] at hyear ⊢
  rcases hyear with hyear | hyear
  · obtain ⟨era, hera, rfl⟩ := List.mem_map.1 hyear
    obtain ⟨name, eras, hget, hera⟩ := NameMap.mem_flatten_values.1 hera
    obtain ⟨sources, hsources, hfrom⟩ := h.erasFrom hget
    rcases hfrom.endYear hera with hnever | ⟨source, hsource, heq⟩
    · rw [hnever] at hordinary
      cases hordinary
    · refine .inl (List.mem_map.2 ⟨source, ?_, heq⟩)
      exact NameMap.mem_flatten_values.2 ⟨name, sources, hsources, hsource⟩
  · obtain ⟨r, hr, hyear⟩ := List.mem_flatMap.1 hyear
    obtain ⟨hr, hanchor⟩ := List.mem_filter.1 hr
    rw [Bool.not_eq_true'] at hanchor
    obtain ⟨name, rules, hget, hr⟩ := NameMap.mem_flatten_values.1 hr
    obtain ⟨sources, hsources, hfrom⟩ := h.rulesFrom hget
    obtain ⟨source, hsource, rfl⟩ := hfrom.exists_source hr hanchor
    refine .inr (List.mem_flatMap.2 ⟨source, ?_, hyear⟩)
    exact NameMap.mem_flatten_values.2 ⟨name, sources, hsources, hsource⟩

/-! ## Made databases -/

theorem Source.policies_restrict (o : Options) (s : Source) :
    (s.restrict o).source.policies = s.policies := rfl

theorem Database.years_of_ofSource {o : Options} {s : Source} {db : Database}
    (h : (ofSource o s).result = .ok db) :
    db.sourceYears = (s.restrict o).source.years ∧
      db.years = tableYears db.zones db.policies := by
  obtain ⟨_, _, _, rfl⟩ := ofSource_eq_ok.1 h
  dsimp only [make]
  exact ⟨rfl, rfl⟩

/-- The eras of every zone are given by some of the zone that was read, in their
order; the rules of every policy by some of the policy that was read, by their
first years; and the years of a database lie among those of its source. -/
theorem MadeFrom.provenance {o : Options} {texts : List SourceText}
    {db : Database} (h : MadeFrom o texts db) :
    (∀ name eras, db.zones.get? name = some eras → ∃ sources,
      (Source.empty.readTexts [] texts).source.zones.get? name = some sources ∧
        ErasFrom o.widths o.strict sources eras) ∧
    (∀ name rules, db.policies.get? name = some rules → ∃ sources,
      (Source.empty.readTexts [] texts).source.policies.get? name =
          some sources ∧
        RulesFrom o.widths o.strict sources rules) ∧
    db.sourceYears.Covers db.years := by
  have hmade := h.madeOf
  refine ⟨fun name eras hget => ?_, fun name rules hget => ?_, ?_⟩
  · obtain ⟨sources, hsources, hfrom⟩ := hmade.erasFrom hget
    exact ⟨sources, Source.get?_of_restrict hsources, hfrom⟩
  · obtain ⟨sources, hsources, hfrom⟩ := hmade.rulesFrom hget
    rw [Source.policies_restrict] at hsources
    exact ⟨sources, hsources, hfrom⟩
  · obtain ⟨hsource, hyears⟩ := Database.years_of_ofSource h.made
    rw [hsource, hyears]
    exact hmade.covers_years

/-- A zone with an era before the window and one behind it, and with times that
are no whole minutes. -/
def cutZoneText : SourceText where
  name := "t"
  text := "R P 1990 o - Apr 1 0:00:30 1 -\n" ++
    "R P 1980 o - Oct lastSun 2 0 S\n" ++
    "Z Z 0:00:07 - A 1990\n" ++
    " 1 P B%s 2001 Mar lastSun 2:00:30\n" ++
    " 2 -1:30 C 2010\n" ++
    " 3 - D\n"

theorem provenance_cutZoneText :
    ∃ db, MadeFrom twoYears [cutZoneText] db ∧ ∃ eras sources,
      db.zones.get? "Z" = some eras ∧
      eras.map (·.ends) =
        [⟨2001, 3, 25, 7200, .wall⟩, Until.endless] ∧
      (Source.empty.readTexts [] [cutZoneText]).source.zones.get? "Z" =
        some sources ∧
      sources.length = 4 ∧
      ErasFrom twoYears.widths false sources eras ∧
      db.sourceYears.Covers db.years := by
  have hrun : (Source.empty.readTexts [] [cutZoneText]).fault = none ∧
      ∃ db ∈ (Database.ofSource twoYears
        (Source.empty.readTexts [] [cutZoneText]).source).result.toOption,
        ∃ eras ∈ db.zones.get? "Z", eras.map (·.ends) =
          [⟨2001, 3, 25, 7200, .wall⟩, Until.endless] := by
    decide +kernel
  have hlength : ∀ sources ∈
      (Source.empty.readTexts [] [cutZoneText]).source.zones.get? "Z",
      sources.length = 4 := by
    decide +kernel
  obtain ⟨hread, hmade⟩ := hrun
  obtain ⟨db, hdb, eras, heras, hends⟩ := exists_eq_ok_of_toOption hmade
  obtain ⟨hzones, _, hyears⟩ := MadeFrom.provenance ⟨hread, hdb⟩
  obtain ⟨sources, hsources, hfrom⟩ := hzones "Z" eras heras
  exact ⟨db, ⟨hread, hdb⟩, eras, sources, heras, hends, hsources,
    hlength sources hsources, hfrom, hyears⟩

end ZoneTables
