import ZoneTables.Proofs.Database.Accounts
import ZoneTables.Proofs.Database.Comments
import ZoneTables.Proofs.Database.Faults

/-!
# Inclusion is restriction

To keep some names only is to make the database of a smaller source.  The names
that are left out go before the passes, so that these review the same entries
either way.  What is found about the names that are left out is found of nothing
else, and goes into the comments on removed zones and links only.
-/

namespace ZoneTables

open Finding

/-! ## Reviews that sift -/

namespace NameMap

variable {α : Type} {kind : Subject} {name : String} {p : String → α → Bool}
  {why : String → α → Removal} {m : NameMap α}

theorem kept_review_ite :
    (m.review kind fun name a =>
      if p name a then .keep a else .remove (why name a)).kept = m.filter p := by
  unfold review filter
  dsimp only
  rw [filterMap_map]
  congr 1
  funext name a
  split <;> rfl

theorem removalsOf_review_ite :
    removalsOf kind name (m.review kind fun name a =>
        if p name a then .keep a else .remove (why name a)).findings =
      (((m.filter fun name a => !p name a).map why).get? name).toList := by
  rw [removalsOf_review, if_pos rfl, get?_map, get?_filter]
  cases m.get? name with
  | none => rfl
  | some a =>
    rw [Option.elim_some]
    cases hp : p name a <;> simp [Option.filter, hp, removalReason?]

theorem removed_of_review_ite :
    ∀ finding ∈ (m.review kind fun name a =>
        if p name a then .keep a else .remove (why name a)).findings,
      ∃ kind name why, finding = removed kind name why := by
  intro finding h
  unfold review at h
  obtain ⟨⟨key, r⟩, hmem, hfinding⟩ := List.mem_flatMap.1 h
  rw [entries_map, List.mem_map] at hmem
  obtain ⟨⟨_, a⟩, _, ⟨⟩⟩ := hmem
  dsimp only at hfinding
  split at hfinding
  · cases hfinding
  · exact ⟨kind, _, _, List.mem_singleton.1 hfinding⟩

theorem kept_review_keep : (m.review kind fun _ a => .keep a).kept = m := by
  refine eq_of_get?_eq fun name => Option.ext fun a => ?_
  rw [get?_kept_review]
  simp

theorem findings_review_keep :
    (m.review kind fun _ a => .keep a).findings = [] := by
  unfold review
  dsimp only
  rw [entries_map, List.flatMap_map, List.flatMap_eq_nil_iff]
  exact fun _ _ => rfl

theorem contains_filter_of_not
    (h : (m.filter fun name a => !p name a).contains name) :
    (m.filter p).contains name = false := by
  unfold contains at *
  rw [get?_filter] at *
  cases hname : m.get? name <;> simp_all [Option.filter]

end NameMap

/-! ## The smaller source -/

namespace Source

/-- Whether a link of the given names may be kept: its target is one of them too,
or no zone at all. -/
def keepsLink (names : NameSet) (s : Source) (name target : String) : Bool :=
  names.contains name && (names.contains target || !s.zones.contains target)

/-- The source with zones and links of the given names only, and without links to
the zones that are left out. -/
def within (names : NameSet) (s : Source) : Source :=
  { s with
    zones := s.zones.filter fun name _ => names.contains name
    links := s.links.filter (s.keepsLink names) }

def zonesLeftOut (names : NameSet) (s : Source) : NameMap Removal :=
  (s.zones.filter fun name _ => !names.contains name).map fun _ _ => .notIncluded

def linksLeftOut (names : NameSet) (s : Source) : NameMap Removal :=
  (s.links.filter fun name target => !s.keepsLink names name target).map
    fun name target =>
      if names.contains name then .targetNotIncluded target else .notIncluded

variable {o : Options} {names : NameSet} {s : Source}

theorem get?_zones_restrict {zone : String} :
    (s.restrict o).source.zones.get? zone =
      if o.includes zone then s.zones.get? zone else none := by
  have hzones : (s.restrict o).source.zones =
      s.zones.filter fun name _ => o.includes name := by
    unfold restrict
    exact @NameMap.kept_review_ite _ .zone _ _ _
  rw [hzones, NameMap.get?_filter]
  cases s.zones.get? zone with
  | none => rw [ite_self, Option.filter_none]
  | some sources => rw [Option.filter_some]

theorem restrict_all (h : o.included = none) : s.restrict o = ⟨s, []⟩ := by
  have hincludes : ∀ name, o.includes name = true := by
    intro name
    unfold Options.includes
    rw [h]
  unfold restrict
  simp [hincludes, NameMap.kept_review_keep, NameMap.findings_review_keep]

theorem restrict_only (h : o.included = some names) :
    s.restrict o =
      { source := s.within names
        findings :=
          (s.zones.review .zone fun name eras =>
            if names.contains name then .keep eras
            else .remove .notIncluded).findings ++
          (s.links.review .link fun name target =>
            if s.keepsLink names name target then .keep target
            else .remove (if names.contains name then .targetNotIncluded target
              else .notIncluded)).findings } := by
  have hincludes : ∀ name, o.includes name = names.contains name := by
    intro name
    unfold Options.includes
    rw [h]
  -- the name of a link counts before its target, which decides on the reason only
  have hlink : ∀ name target : String,
      (if !names.contains name then (.remove .notIncluded : Review String)
        else if s.zones.contains target && !names.contains target then
          .remove (.targetNotIncluded target)
        else .keep target) =
      if s.keepsLink names name target then .keep target
      else .remove (if names.contains name then .targetNotIncluded target
        else .notIncluded) := by
    intro name target
    unfold keepsLink
    cases names.contains name <;> cases names.contains target <;>
      cases s.zones.contains target <;> rfl
  unfold restrict within
  simp only [hincludes, hlink, NameMap.kept_review_ite]

section LeftOut

variable (h : o.included = some names)

include h

theorem removed_of_restrict : ∀ finding ∈ (s.restrict o).findings,
    ∃ kind name why, finding = removed kind name why := by
  rw [restrict_only h]
  intro finding hmem
  rcases List.mem_append.1 hmem with hmem | hmem
  · exact NameMap.removed_of_review_ite finding hmem
  · exact NameMap.removed_of_review_ite finding hmem

theorem removalsOf_restrict_zone (zone : String) :
    removalsOf .zone zone (s.restrict o).findings =
      ((s.zonesLeftOut names).get? zone).toList := by
  rw [restrict_only h, removalsOf_append,
    NameMap.removalsOf_review_of_ne (by decide : Subject.link ≠ .zone),
    List.append_nil]
  exact NameMap.removalsOf_review_ite

theorem removalsOf_restrict_link (link : String) :
    removalsOf .link link (s.restrict o).findings =
      ((s.linksLeftOut names).get? link).toList := by
  rw [restrict_only h, removalsOf_append,
    NameMap.removalsOf_review_of_ne (by decide : Subject.zone ≠ .link)]
  exact NameMap.removalsOf_review_ite

end LeftOut

theorem removalsOf_restrict_policy (policy : String) :
    removalsOf .policy policy (s.restrict o).findings = [] := by
  unfold restrict
  dsimp only
  rw [removalsOf_append,
    NameMap.removalsOf_review_of_ne (by decide : Subject.zone ≠ .policy),
    NameMap.removalsOf_review_of_ne (by decide : Subject.link ≠ .policy)]
  rfl

theorem contains_within_zones {zone : String}
    (h : (s.zonesLeftOut names).contains zone) :
    (s.within names).zones.contains zone = false := by
  unfold zonesLeftOut at h
  rw [NameMap.contains_map] at h
  exact NameMap.contains_filter_of_not h

theorem contains_within_links {link : String}
    (h : (s.linksLeftOut names).contains link) :
    (s.within names).links.contains link = false := by
  unfold linksLeftOut at h
  rw [NameMap.contains_map] at h
  exact NameMap.contains_filter_of_not h

/-- No link to a link comes about when names are left out. -/
theorem linkChain?_restrict (h : s.linkChain? = none) :
    (s.restrict o).source.linkChain? = none := by
  rw [linkChain?_eq_none] at h ⊢
  intro link target hlink htarget
  obtain ⟨next, hnext⟩ := Option.isSome_iff_exists.1 htarget
  exact h link target (get?_links_restrict hlink)
    (NameMap.contains_of_get? (get?_links_restrict hnext))

end Source

/-! ## Databases -/

theorem TellsFates.removalsOf_eq_nil {α β : Type} {subject : Subject}
    {source : NameMap α} {m : NameMap β} {findings : List Finding}
    (h : TellsFates subject source m findings) {name : String}
    (hname : source.contains name = false) :
    removalsOf subject name findings = [] := by
  obtain ⟨fate, hsome, hfate⟩ := h name
  rw [hname, Option.isSome_eq_false_iff, Option.isNone_iff_eq_none] at hsome
  rw [hfate.reasons, hsome]
  rfl

namespace Database

/-- Whether a database is another one with comments on zones and links that were
left out. -/
structure LeavesOut (db : Database) (zones links : NameMap Removal)
    (db' : Database) : Prop where
  same : db = { db' with
    comments := { db'.comments with
      removedZones := db.comments.removedZones
      removedLinks := db.comments.removedLinks
      mergedRemovedZones := db.comments.mergedRemovedZones } }
  removedZones :
    (zones.map fun _ why => NameSet.insert .empty why.message).Joins
      db'.comments.removedZones db.comments.removedZones
  removedLinks :
    (links.map fun _ why => NameSet.insert .empty why.message).Joins
      db'.comments.removedLinks db.comments.removedLinks
  mergedRemovedZones :
    ((zones.map fun _ why => NameSet.insert .empty why.message).map
      fun _ reasons => (⟨reasons, .empty⟩ : ZoneComments)).Joins
      db'.comments.mergedRemovedZones db.comments.mergedRemovedZones

theorem make_found (o : Options) (source : Source) :
    ∃ findings, TellsAll source (Passes.of o source).zones.kept
        (Passes.of o source).policies.kept (Passes.of o source).links.kept
        findings ∧
      ∀ found, (make o source found).database =
        { (make o source []).database with
          comments := .ofFindings (found ++ findings) source.policyUse
            (Zones.policyUse (Passes.of o source).zones.kept) } := by
  refine ⟨_, (Passes.tellsAll o (.start source)).skip fun _ _ =>
    removalsOf_anomalyFindings (Passes.of o source).zones.kept
      (Passes.of o source).policies.kept, fun found => ?_⟩
  unfold make
  dsimp only
  rw [List.nil_append, List.append_assoc]

/-- What was found before about names that a source does not hold is added to the
comments on removed zones and links. -/
theorem make_leavesOut {o : Options} {source : Source} {found : List Finding}
    {zones links : NameMap Removal}
    (hfound : ∀ finding ∈ found,
      ∃ kind name why, finding = removed kind name why)
    (hzones : ∀ name,
      removalsOf .zone name found = (zones.get? name).toList)
    (hlinks : ∀ name,
      removalsOf .link name found = (links.get? name).toList)
    (hpolicies : ∀ name, removalsOf .policy name found = [])
    (hnoZone : ∀ name, zones.contains name →
      source.zones.contains name = false)
    (hnoLink : ∀ name, links.contains name →
      source.links.contains name = false) :
    (make o source found).database.LeavesOut zones links
      (make o source []).database := by
  obtain ⟨findings, htells, hmake⟩ := make_found o source
  have hcomments := congrArg Database.comments (hmake [])
  dsimp only [List.nil_append] at hcomments
  have hjoins := CommentMap.joins_removals hzones fun name hname =>
    htells.zones.removalsOf_eq_nil (hnoZone name hname)
  rw [hmake found]
  constructor <;> rw [hcomments]
  case same =>
    unfold Comments.ofFindings
    rw [CommentMap.notes_append hfound, CommentMap.notes_append hfound,
      CommentMap.notes_append hfound, CommentMap.removals_append hpolicies]
  case removedZones => exact hjoins
  case removedLinks =>
    exact CommentMap.joins_removals hlinks fun name hname =>
      htells.links.removalsOf_eq_nil (hnoLink name hname)
  case mergedRemovedZones =>
    unfold Comments.ofFindings
    dsimp only
    rw [CommentMap.removals_append hpolicies]
    -- the smaller source has no eras of a zone that is left out
    refine hjoins.mergeComments _ fun zone hzone => ?_
    rw [NameMap.contains_map] at hzone
    rw [← Option.isNone_iff_eq_none, ← Option.isSome_eq_false_iff]
    unfold Source.policyUse
    exact (NameMap.contains_map _ _ _).trans (hnoZone zone hzone)

/-- To keep the zones and links of some names only is to make the database of the
source within these names, if no link stands for a link.  Both have the same
fault, or both give a database, and these two are the same but for the comments on
removed zones and links: to these the names that were left out are added. -/
theorem inclusion_restricts (o : Options) (names : NameSet) (s : Source)
    (hlinks : ∀ link target, s.links.get? link = some target →
      ¬ s.links.contains target) :
    (∃ fault,
      (ofSource { o with included := some names } s).result = .error fault ∧
      (ofSource { o with included := none } (s.within names)).result =
        .error fault) ∨
    ∃ db db',
      (ofSource { o with included := some names } s).result = .ok db ∧
      (ofSource { o with included := none } (s.within names)).result = .ok db' ∧
      db.LeavesOut (s.zonesLeftOut names) (s.linksLeftOut names) db' := by
  have hchain := Source.linkChain?_eq_none.2 hlinks
  have honly : (s.restrict { o with included := some names }).source =
      s.within names := by
    rw [Source.restrict_only rfl]
  have hchain' : (s.within names).linkChain? = none := by
    rw [← honly]
    exact Source.linkChain?_restrict hchain
  have hall : (s.within names).restrict { o with included := none } =
      ⟨s.within names, []⟩ := Source.restrict_all rfl
  have hfault : s.firstFault? { o with included := some names } =
      (s.within names).firstFault? { o with included := none } := by
    unfold Source.firstFault? Source.referenceFault?
    rw [honly, hall, hchain, hchain']
  rw [result_ofSource, result_ofSource, ← hfault]
  cases s.firstFault? { o with included := some names } with
  | some fault => exact .inl ⟨fault, rfl, rfl⟩
  | none =>
    refine .inr ⟨_, _, rfl, rfl, ?_⟩
    rw [hall, honly]
    -- the passes do not look at the names to keep
    exact make_leavesOut (Source.removed_of_restrict rfl)
      (Source.removalsOf_restrict_zone rfl)
      (Source.removalsOf_restrict_link rfl) Source.removalsOf_restrict_policy
      (fun _ => Source.contains_within_zones)
      (fun _ => Source.contains_within_links)

end Database

def leftOutText : SourceText where
  name := "t"
  text := fallingZoneText.text ++
    "Z X 0 - X\n" ++
    "L X C\n"

def namesKept : NameSet := .ofList ["A", "B", "C", "Y", "Z"]

/-- The zone that is left out and the link to it are among the removed ones with
the zone and the link that go either way. -/
theorem inclusion_restricts_leftOutText :
    ∃ s db db', (Source.empty.readTexts [] [leftOutText]).source = s ∧
      (Database.ofSource { twoYears with included := some namesKept } s).result =
        .ok db ∧
      (Database.ofSource { twoYears with included := none }
        (s.within namesKept)).result = .ok db' ∧
      db.LeavesOut (s.zonesLeftOut namesKept) (s.linksLeftOut namesKept) db' ∧
      (db.zones.keys = ["Z"] ∧ db.links.keys = ["A"]) ∧
      (db.comments.removedZones.keys = ["X", "Y"] ∧
        db'.comments.removedZones.keys = ["Y"]) ∧
      (db.comments.removedLinks.keys = ["B", "C"] ∧
        db'.comments.removedLinks.keys = ["B"]) := by
  have hrun : ∃ db ∈ (Database.ofSource
        { twoYears with included := some namesKept }
        (Source.empty.readTexts [] [leftOutText]).source).result.toOption,
      (db.zones.keys = ["Z"] ∧ db.links.keys = ["A"]) ∧
        db.comments.removedZones.keys = ["X", "Y"] ∧
        db.comments.removedLinks.keys = ["B", "C"] := by
    decide +kernel
  have hrun' : ∃ db ∈ (Database.ofSource { twoYears with included := none }
        ((Source.empty.readTexts [] [leftOutText]).source.within
          namesKept)).result.toOption,
      db.comments.removedZones.keys = ["Y"] ∧
        db.comments.removedLinks.keys = ["B"] := by
    decide +kernel
  obtain ⟨db, hdb, hkept, hzones, hlinks⟩ := exists_eq_ok_of_toOption hrun
  obtain ⟨db', hdb', hzones', hlinks'⟩ := exists_eq_ok_of_toOption hrun'
  have hchain := (Database.ofSource_eq_ok.1 hdb).2.1
  rcases Database.inclusion_restricts twoYears namesKept _
    (Source.linkChain?_eq_none.1 hchain) with
      ⟨_, hfault, _⟩ | ⟨_, _, hok, hok', hleaves⟩
  · exact nomatch hfault.symm.trans hdb
  · cases hok.symm.trans hdb
    cases hok'.symm.trans hdb'
    exact ⟨_, db, db', rfl, hdb, hdb', hleaves, hkept, ⟨hzones, hzones'⟩,
      hlinks, hlinks'⟩

end ZoneTables
