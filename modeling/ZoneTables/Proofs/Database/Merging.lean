import ZoneTables.Proofs.Database.Inclusion
import ZoneTables.Proofs.Database.Survival

/-!
# Comments on policies beside those on zones

The comments on a zone are merged with those on the policies that it uses: a
kept zone with the notes about the policies of its eras, a removed zone with the
reasons for which policies of its source went.  Which policies the zones of the
source use is looked up after the zones that are not included have gone, so that
these are merged with nothing.
-/

namespace ZoneTables

variable {o : Options} {s : Source} {db : Database} {zone : String}

def Source.NamesPolicy (s : Source) (zone policy : String) : Prop :=
  ∃ sources, s.zones.get? zone = some sources ∧
    ∃ source ∈ sources, source.policy? = some policy

/-- Whether comments on a zone are its own ones together with all those on the
policies that it uses. -/
structure ZoneComments.Merges (comments : ZoneComments) (own : Option NameSet)
    (policies : CommentMap) (uses : String → Prop) : Prop where
  reasons : comments.reasons = own.getD .empty
  used : ∀ policy, uses policy →
    comments.policies.get? policy = policies.get? policy
  unused : ∀ policy, ¬ uses policy → comments.policies.get? policy = none

/-! ## One zone -/

theorem NameMap.isEmpty_iff {α : Type} {m : NameMap α} :
    m.isEmpty ↔ ∀ name, m.contains name = false := by
  unfold isEmpty contains
  rw [List.isEmpty_iff]
  constructor
  · intro hnil name
    unfold get?
    rw [hnil]
    rfl
  · intro hnone
    refine List.eq_nil_iff_forall_not_mem.2 fun p hp => ?_
    have hget := hnone p.1
    rw [get?_eq_some_iff.2 hp] at hget
    cases hget

section One

variable {policies : CommentMap} {names : NameSet} {own : Option NameSet}

theorem NameMap.get?_filter_contains (policy : String) :
    (policies.filter fun policy _ => names.contains policy).get? policy =
      if names.contains policy then policies.get? policy else none := by
  rw [NameMap.get?_filter]
  cases policies.get? policy with
  | none => rw [ite_self, Option.filter_none]
  | some texts => rw [Option.filter_some]

theorem merges_of_inheritComments {comments : ZoneComments}
    (h : inheritComments policies names (own.map (⟨·, .empty⟩)) =
      some comments) :
    comments.Merges own policies (names.contains ·) := by
  unfold inheritComments at h
  dsimp only at h
  split at h
  · rename_i hempty
    obtain ⟨reasons, rfl, rfl⟩ := Option.map_eq_some_iff.1 h
    refine ⟨rfl, fun policy hpolicy => ?_, fun _ _ => rfl⟩
    have hnone := NameMap.isEmpty_iff.1 hempty policy
    rw [NameMap.contains, NameMap.get?_filter_contains, if_pos hpolicy,
      Option.isSome_eq_false_iff, Option.isNone_iff_eq_none] at hnone
    exact hnone.symm
  · cases h
    refine ⟨by cases own <;> rfl, fun policy hpolicy => ?_,
      fun policy hpolicy => ?_⟩
    · rw [NameMap.get?_filter_contains, if_pos hpolicy]
    · rw [NameMap.get?_filter_contains, if_neg hpolicy]

theorem isSome_inheritComments :
    (inheritComments policies names (own.map (⟨·, .empty⟩))).isSome ↔
      own.isSome ∨ ∃ policy, names.contains policy ∧ policies.contains policy := by
  have hfilter : ∀ policy,
      (policies.filter fun policy _ => names.contains policy).contains policy ↔
        names.contains policy ∧ policies.contains policy := by
    intro policy
    rw [NameMap.contains, NameMap.get?_filter_contains]
    by_cases hpolicy : names.contains policy
    · rw [if_pos hpolicy, and_iff_right hpolicy, NameMap.contains]
    · rw [if_neg hpolicy]
      exact iff_of_false Bool.false_ne_true fun h => hpolicy h.1
  unfold inheritComments
  dsimp only
  split
  · rename_i hempty
    rw [Option.isSome_map, or_iff_left]
    rintro ⟨policy, hpolicy⟩
    have hnone := NameMap.isEmpty_iff.1 hempty policy
    rw [(hfilter policy).2 hpolicy] at hnone
    cases hnone
  · rename_i hnonempty
    rw [NameMap.isEmpty_iff, not_forall] at hnonempty
    obtain ⟨policy, hpolicy⟩ := hnonempty
    rw [Bool.not_eq_false, hfilter] at hpolicy
    exact iff_of_true rfl (.inr ⟨policy, hpolicy⟩)

variable {zones : CommentMap} {use : PolicyUse}

theorem merges_of_mergeComments {comments : ZoneComments}
    (h : (mergeComments zones policies use).get? zone = some comments) :
    comments.Merges (zones.get? zone) policies fun policy =>
      ∃ names, use.get? zone = some names ∧ names.contains policy := by
  rw [get?_mergeComments] at h
  cases huse : use.get? zone with
  | none =>
    rw [huse] at h
    obtain ⟨reasons, hreasons, rfl⟩ := Option.map_eq_some_iff.1 h
    rw [hreasons]
    exact ⟨rfl, fun _ => nofun, fun _ _ => rfl⟩
  | some names =>
    rw [huse] at h
    simpa using merges_of_inheritComments h

theorem contains_mergeComments :
    (mergeComments zones policies use).contains zone ↔
      zones.contains zone ∨ ∃ policy,
        (∃ names, use.get? zone = some names ∧ names.contains policy) ∧
          policies.contains policy := by
  unfold NameMap.contains
  rw [get?_mergeComments]
  cases use.get? zone with
  | none => simp
  | some names => simpa [NameMap.contains] using isSome_inheritComments

end One

/-! ## Policies of zones -/

theorem contains_policiesOf {eras : List Era} {policy : String} :
    (NameSet.ofList (eras.filterMap (·.saving.policy?))).contains policy ↔
      ∃ era ∈ eras, era.saving = .policy policy := by
  rw [NameSet.contains_ofList, mem_policies_iff]

theorem Source.contains_policiesOf {sources : List SourceEra} {policy : String} :
    (NameSet.ofList (sources.filterMap SourceEra.policy?)).contains policy ↔
      ∃ source ∈ sources, source.policy? = some policy := by
  rw [NameSet.contains_ofList, List.mem_filterMap]

/-! ## Databases -/

section Merged

variable {policy : String}

theorem Source.uses_policyUse :
    (∃ names, (s.restrict o).source.policyUse.get? zone = some names ∧
        names.contains policy) ↔
      o.includes zone ∧ s.NamesPolicy zone policy := by
  unfold policyUse NamesPolicy
  rw [NameMap.get?_map, get?_zones_restrict]
  by_cases hincluded : o.includes zone
  · rw [if_pos hincluded, and_iff_right hincluded]
    cases s.zones.get? zone <;> simp [contains_policiesOf]
  · rw [if_neg hincluded]
    exact ⟨nofun, fun h => absurd h.1 hincluded⟩

theorem Zones.uses_policyUse {zones : Zones} {eras : List Era}
    (h : zones.get? zone = some eras) :
    (∃ names, zones.policyUse.get? zone = some names ∧
        names.contains policy) ↔ ∃ era ∈ eras, era.saving = .policy policy := by
  unfold policyUse
  rw [NameMap.get?_map, h]
  simp [contains_policiesOf]

namespace ZoneComments.Merges

variable {comments : ZoneComments} {own : Option NameSet}
  {policies : CommentMap} {uses uses' : String → Prop} {c : Prop}

theorem congr (h : comments.Merges own policies uses)
    (huses : ∀ policy, uses policy ↔ uses' policy) :
    comments.Merges own policies uses' where
  reasons := h.reasons
  used policy hpolicy := h.used policy ((huses policy).2 hpolicy)
  unused policy hpolicy := h.unused policy (mt (huses policy).1 hpolicy)

theorem iff_of_and (h : comments.Merges own policies fun policy => c ∧ uses policy) :
    comments.Merges own policies uses ↔
      c ∨ ∀ policy, uses policy → ¬ policies.contains policy := by
  by_cases hc : c
  · exact iff_of_true (h.congr fun policy => and_iff_right hc) (.inl hc)
  · have hnone : ∀ policy, comments.policies.get? policy = none :=
      fun policy => h.unused policy fun hpolicy => hc hpolicy.1
    rw [or_iff_right hc]
    constructor
    · intro hall policy hpolicy hcontains
      rw [NameMap.contains, ← hall.used policy hpolicy, hnone] at hcontains
      cases hcontains
    · intro hall
      refine ⟨h.reasons, fun policy hpolicy => ?_, fun policy _ => hnone policy⟩
      have hpolicies := hall policy hpolicy
      rw [NameMap.contains, Bool.not_eq_true, Option.isSome_eq_false_iff,
        Option.isNone_iff_eq_none] at hpolicies
      rw [hnone, hpolicies]

end ZoneComments.Merges

end Merged

theorem Comments.merged_ofFindings (findings : List Finding)
    (sourceUse keptUse : PolicyUse) :
    let comments := ofFindings findings sourceUse keptUse
    comments.mergedRemovedZones =
        mergeComments comments.removedZones comments.removedPolicies
          (sourceUse.filter fun zone _ => comments.removedZones.contains zone) ∧
      comments.mergedNotableZones =
        mergeComments comments.notableZones comments.notablePolicies keptUse :=
  ⟨rfl, rfl⟩

theorem Database.merged_of_ofSource (h : (ofSource o s).result = .ok db) :
    db.comments.mergedRemovedZones =
        mergeComments db.comments.removedZones db.comments.removedPolicies
          ((s.restrict o).source.policyUse.filter fun zone _ =>
            db.comments.removedZones.contains zone) ∧
      db.comments.mergedNotableZones =
        mergeComments db.comments.notableZones db.comments.notablePolicies
          db.zones.policyUse := by
  obtain ⟨_, _, _, rfl⟩ := ofSource_eq_ok.1 h
  have hcomments : (make o (s.restrict o).source
      (s.restrict o).findings).database.comments =
    .ofFindings (make o (s.restrict o).source (s.restrict o).findings).findings
      (s.restrict o).source.policyUse
      (make o (s.restrict o).source
        (s.restrict o).findings).database.zones.policyUse := rfl
  rw [hcomments]
  exact Comments.merged_ofFindings _ _ _

theorem NameMap.exists_get?_filter_iff {α : Type} {m : NameMap α} {c : Bool}
    {p : String → Bool} {q : α → Prop} (hc : p zone = c) :
    (∃ a, (m.filter fun zone _ => p zone).get? zone = some a ∧ q a) ↔
      c ∧ ∃ a, m.get? zone = some a ∧ q a := by
  rw [get?_filter]
  subst hc
  cases m.get? zone with
  | none => simp
  | some a => cases p zone <;> simp

/-- Exactly the removed zones have merged reasons: their own, and for a zone that
is included those of every removed policy that its source names.  For a zone that
is not included the latter are missing, if there are any.  A kept zone has merged
notes exactly if there are some about itself or about a policy that its eras
follow, and these are all of them. -/
theorem Database.comments_merged_iff (h : (ofSource o s).result = .ok db) :
    (∀ zone, db.comments.mergedRemovedZones.contains zone ↔
      db.comments.removedZones.contains zone) ∧
    (∀ zone comments,
      db.comments.mergedRemovedZones.get? zone = some comments →
      comments.Merges (db.comments.removedZones.get? zone)
        db.comments.removedPolicies
        (fun policy => o.includes zone ∧ s.NamesPolicy zone policy) ∧
      (comments.Merges (db.comments.removedZones.get? zone)
          db.comments.removedPolicies (s.NamesPolicy zone) ↔
        o.includes zone ∨ ∀ policy, s.NamesPolicy zone policy →
          ¬ db.comments.removedPolicies.contains policy)) ∧
    ∀ zone eras, db.zones.get? zone = some eras →
      (db.comments.mergedNotableZones.contains zone ↔
        db.comments.notableZones.contains zone ∨ ∃ policy,
          (∃ era ∈ eras, era.saving = .policy policy) ∧
            db.comments.notablePolicies.contains policy) ∧
      ∀ comments, db.comments.mergedNotableZones.get? zone = some comments →
        comments.Merges (db.comments.notableZones.get? zone)
          db.comments.notablePolicies
          fun policy => ∃ era ∈ eras, era.saving = .policy policy := by
  obtain ⟨hremoved, hnotable⟩ := merged_of_ofSource h
  have hkeys : ∀ zone, db.comments.mergedRemovedZones.contains zone ↔
      db.comments.removedZones.contains zone := by
    intro zone
    rw [hremoved, contains_mergeComments]
    -- the policies are looked up of removed zones only
    refine or_iff_left_of_imp ?_
    rintro ⟨policy, ⟨names, hnames, _⟩, _⟩
    rw [NameMap.get?_filter] at hnames
    exact (Option.filter_eq_some_iff.1 hnames).2
  refine ⟨hkeys, fun zone comments hzone => ?_, fun zone eras heras => ?_⟩
  · have hzoneRemoved : db.comments.removedZones.contains zone :=
      (hkeys zone).1 (NameMap.contains_of_get? hzone)
    rw [hremoved] at hzone
    have hmerges := (merges_of_mergeComments hzone).congr fun policy => by
      rw [NameMap.exists_get?_filter_iff rfl, and_iff_right hzoneRemoved,
        Source.uses_policyUse]
    exact ⟨hmerges, hmerges.iff_of_and⟩
  · constructor
    · rw [hnotable, contains_mergeComments]
      simp only [Zones.uses_policyUse heras]
    · intro comments hzone
      rw [hnotable] at hzone
      exact (merges_of_mergeComments hzone).congr fun policy =>
        Zones.uses_policyUse heras

/-- A zone whose policy is worth a note, one that goes with its policy, and one
that is not included and whose policy nothing else uses. -/
def threeZoneText : SourceText where
  name := "t"
  text := "R P 2000 2001 - Apr 1 0 0:30 D\n" ++
    "Z Z 0 P E%s\n" ++
    "R Q 2000 2001 - Feb 30 0 1 D\n" ++
    "Z Y 0 Q F%s\n" ++
    "R U 2000 o - Mar 1 0 1 D\n" ++
    "Z X 0 U G%s\n"

def twoZones : Options :=
  { twoYears with included := some (NameSet.ofList ["Y", "Z"]) }

theorem comments_merged_iff_threeZoneText :
    ∃ s db, (Database.ofSource twoZones s).result = .ok db ∧
      db.comments.removedZones.keys = ["X", "Y"] ∧ db.zones.keys = ["Z"] ∧
      db.comments.removedPolicies.keys = ["Q", "U"] ∧
      db.comments.notablePolicies.keys = ["P"] ∧
      (∀ zone, db.comments.mergedRemovedZones.contains zone ↔
        db.comments.removedZones.contains zone) ∧
      (∀ zone comments,
        db.comments.mergedRemovedZones.get? zone = some comments →
        comments.Merges (db.comments.removedZones.get? zone)
          db.comments.removedPolicies
          (fun policy => twoZones.includes zone ∧ s.NamesPolicy zone policy) ∧
        (comments.Merges (db.comments.removedZones.get? zone)
            db.comments.removedPolicies (s.NamesPolicy zone) ↔
          twoZones.includes zone ∨ ∀ policy, s.NamesPolicy zone policy →
            ¬ db.comments.removedPolicies.contains policy)) ∧
      ∀ zone eras, db.zones.get? zone = some eras →
        (db.comments.mergedNotableZones.contains zone ↔
          db.comments.notableZones.contains zone ∨ ∃ policy,
            (∃ era ∈ eras, era.saving = .policy policy) ∧
              db.comments.notablePolicies.contains policy) ∧
        ∀ comments, db.comments.mergedNotableZones.get? zone = some comments →
          comments.Merges (db.comments.notableZones.get? zone)
            db.comments.notablePolicies
            fun policy => ∃ era ∈ eras, era.saving = .policy policy := by
  have hrun : ∃ db ∈ (Database.ofSource twoZones
      (Source.empty.readTexts [] [threeZoneText]).source).result.toOption,
      db.comments.removedZones.keys = ["X", "Y"] ∧ db.zones.keys = ["Z"] ∧
        db.comments.removedPolicies.keys = ["Q", "U"] ∧
        db.comments.notablePolicies.keys = ["P"] := by
    decide +kernel
  obtain ⟨db, hdb, hzones, hkept, hpolicies, hnotable⟩ :=
    exists_eq_ok_of_toOption hrun
  exact ⟨_, db, hdb, hzones, hkept, hpolicies, hnotable,
    Database.comments_merged_iff hdb⟩

/-- The reason for which the policy of the zone that is not included went is not
among the reasons for which the zone did. -/
theorem not_merges_threeZoneText :
    ∃ s db comments, (Database.ofSource twoZones s).result = .ok db ∧
      s = (Source.empty.readTexts [] [threeZoneText]).source ∧
      db.comments.removedZones.contains "X" ∧ s.NamesPolicy "X" "U" ∧
      db.comments.removedPolicies.contains "U" ∧
      db.comments.mergedRemovedZones.get? "X" = some comments ∧
      comments.policies.get? "U" = none := by
  have hrun : (∃ db ∈ (Database.ofSource twoZones
        (Source.empty.readTexts [] [threeZoneText]).source).result.toOption,
        db.comments.removedZones.contains "X" ∧
          db.comments.removedPolicies.contains "U" ∧
          ∃ comments ∈ db.comments.mergedRemovedZones.get? "X",
            comments.policies.get? "U" = none) ∧
      ∃ sources ∈
        (Source.empty.readTexts [] [threeZoneText]).source.zones.get? "X",
        ∃ source ∈ sources, source.policy? = some "U" := by
    decide +kernel
  obtain ⟨hrun, sources, hsources, hnames⟩ := hrun
  rw [Option.mem_def] at hsources
  obtain ⟨db, hdb, hzone, hpolicy, comments, hcomments, hnone⟩ :=
    exists_eq_ok_of_toOption hrun
  exact ⟨_, db, comments, hdb, rfl, hzone, ⟨sources, hsources, hnames⟩, hpolicy,
    hcomments, hnone⟩

end ZoneTables
