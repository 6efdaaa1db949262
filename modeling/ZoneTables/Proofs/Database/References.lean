import Mathlib.Data.List.Sort
import ZoneTables.Proofs.Database.Made

/-!
# References and names of a database

Zones, policies and links are removed in several passes, and each removal can
take away what another entry refers to.  Whatever the source and the options
are, nothing that is left refers to an entry that is not there, no policy is
left without a use, and no two names have a form or a hash in common.
-/

namespace ZoneTables

/-! ## Names without a clash -/

/-- Whether tables can tell two names apart. -/
def NameForms.Differ (a b : NameForms) : Prop :=
  a.normalized ≠ b.normalized ∧ a.hash ≠ b.hash

namespace Source

theorem clash?_eq_none {earlier : List NameForms} {name : NameForms} :
    clash? earlier name = none ↔ ∀ other ∈ earlier, other.Differ name := by
  unfold clash? NameForms.Differ
  cases hform : earlier.find? fun other =>
      other.normalized == name.normalized with
  | some other =>
    have hsame := List.find?_some hform
    have hmem := List.mem_of_find?_eq_some hform
    constructor
    · exact nofun
    · intro hall
      exact absurd (beq_iff_eq.1 hsame) (hall other hmem).1
  | none =>
    cases hhash : earlier.find? fun other => other.hash == name.hash with
    | some other =>
      have hsame := List.find?_some hhash
      have hmem := List.mem_of_find?_eq_some hhash
      constructor
      · exact nofun
      · intro hall
        exact absurd (beq_iff_eq.1 hsame) (hall other hmem).2
    | none =>
      simp only [List.find?_eq_none, beq_iff_eq] at hform hhash
      exact ⟨fun _ other hmem => ⟨hform other hmem, hhash other hmem⟩,
        fun _ => rfl⟩

theorem firstClash?_eq_none {names : List NameForms} :
    ∀ {earlier : List NameForms}, firstClash? earlier names = none ↔
      names.Pairwise NameForms.Differ ∧
        ∀ other ∈ earlier, ∀ name ∈ names, other.Differ name := by
  induction names with
  | nil => simp [firstClash?]
  | cons name rest ih =>
    intro earlier
    have hstep : firstClash? earlier (name :: rest) = none ↔
        clash? earlier name = none ∧
          firstClash? (name :: earlier) rest = none := by
      rw [firstClash?]
      cases clash? earlier name <;> simp
    rw [hstep, clash?_eq_none, ih, List.pairwise_cons]
    simp only [List.forall_mem_cons]
    constructor
    · intro ⟨hname, hrest, hfirst, hearlier⟩
      exact ⟨⟨hfirst, hrest⟩, fun other hmem =>
        ⟨hname other hmem, hearlier other hmem⟩⟩
    · intro ⟨⟨hfirst, hrest⟩, hearlier⟩
      exact ⟨fun other hmem => (hearlier other hmem).1, hrest, hfirst,
        fun other hmem => (hearlier other hmem).2⟩

theorem firstClash?_map_eq_none {names : List String} :
    firstClash? [] (names.map NameForms.of) = none ↔
      (names.map Name.normalize).Nodup ∧ (names.map Name.hash).Nodup := by
  have hdiffer : ∀ a b : String, (NameForms.of a).Differ (NameForms.of b) ↔
      Name.normalize a ≠ Name.normalize b ∧ Name.hash a ≠ Name.hash b :=
    fun _ _ => Iff.rfl
  rw [firstClash?_eq_none, List.pairwise_map]
  simp only [hdiffer, List.Nodup, List.pairwise_map]
  rw [← List.pairwise_and_iff]
  simp

theorem nameClash?_eq_none {s : Source} :
    s.nameClash? = none ↔
      ((s.zones.keys ++ s.links.keys).map Name.normalize).Nodup ∧
        ((s.zones.keys ++ s.links.keys).map Name.hash).Nodup :=
  firstClash?_map_eq_none

theorem linkChain?_eq_none {s : Source} :
    s.linkChain? = none ↔ ∀ link target, s.links.get? link = some target →
      ¬ s.links.contains target := by
  unfold linkChain?
  rw [List.findSome?_eq_none_iff]
  constructor
  · intro hall link target hget hcontains
    have hnone := hall (link, target) (NameMap.get?_eq_some_iff.1 hget)
    simp [hcontains] at hnone
  · intro hall ⟨link, target⟩ hmem
    simp [hall link target (NameMap.get?_eq_some_iff.2 hmem)]

end Source

/-! ## What the passes leave -/

theorem NameMap.keys_sublist {α β : Type} {m : NameMap α} {n : NameMap β}
    (h : ∀ name, m.contains name → n.contains name) :
    m.keys.Sublist n.keys := by
  have hsubset : m.keys ⊆ n.keys := fun name hmem =>
    contains_iff_mem_keys.1 (h name (contains_iff_mem_keys.2 hmem))
  have hnodup : m.keys.Nodup :=
    m.keys_sorted.imp fun hlt => Std.ne_of_lt hlt
  have hantisymm : Std.Antisymm ((· < ·) : String → String → Prop) :=
    ⟨fun _ _ hab hba => absurd (String.lt_trans hab hba) (String.lt_irrefl _)⟩
  exact List.sublist_of_subperm_of_pairwise
    (List.subperm_of_subset hnodup hsubset) m.keys_sorted n.keys_sorted

theorem Source.get?_links_restrict {o : Options} {s : Source}
    {link target : String}
    (h : (s.restrict o).source.links.get? link = some target) :
    s.links.get? link = some target := by
  have hreview : (s.links.review .link fun name target =>
      if !o.includes name then Review.remove .notIncluded
      else if s.zones.contains target && !o.includes target then
        .remove (.targetNotIncluded target)
      else .keep target).kept.get? link = some target := h
  obtain ⟨target', htarget, hkeep⟩ := NameMap.get?_kept_review.1 hreview
  split at hkeep
  · cases hkeep
  · split at hkeep
    · cases hkeep
    · cases hkeep
      exact htarget

namespace Passes

variable {o : Options} {s : Source} {name : String}

theorem contains_source_of_zones
    (h : (Passes.of o s).zones.kept.contains name) :
    s.zones.contains name := by
  obtain ⟨eras, heras⟩ := Option.isSome_iff_exists.1 h
  have husable := (get?_zones.1 heras).1
  have hresolved := of_simpleZones (get?_usableZones.1 husable).1
  obtain ⟨kept, hkept, _⟩ := get?_resolvedZones.1 hresolved
  obtain ⟨sources, hsources, _⟩ := get?_inWindow.1 hkept
  exact NameMap.contains_of_get? hsources

theorem get?_source_of_links {target : String}
    (h : (Passes.of o s).links.kept.get? name = some target) :
    s.links.get? name = some target := by
  have husable := (get?_links.1 h).1
  have hreview : (Links.reviewTargets (Passes.of o s).usableZones.kept
      s.links).kept.get? name = some target := husable
  exact (Links.get?_kept_reviewTargets.1 hreview).1

theorem contains_policies :
    (Passes.of o s).policies.kept.contains name ↔
      (Passes.of o s).simplePolicies.kept.contains name ∧
        (Zones.policyNames (Passes.of o s).zones.kept).contains name := by
  constructor
  · intro h
    obtain ⟨rules, hrules⟩ := Option.isSome_iff_exists.1 h
    obtain ⟨hsimple, hused⟩ := get?_policies.1 hrules
    exact ⟨NameMap.contains_of_get? hsimple, hused⟩
  · intro ⟨hsimple, hused⟩
    obtain ⟨rules, hrules⟩ := Option.isSome_iff_exists.1 hsimple
    exact NameMap.contains_of_get? (get?_policies.2 ⟨hrules, hused⟩)

end Passes

/-! ## Databases -/

namespace Database

def Uses (db : Database) (zone policy : String) : Prop :=
  ∃ eras, db.zones.get? zone = some eras ∧
    ∃ era ∈ eras, era.saving = .policy policy

/-- Whether entries refer to entries that are there, policies are in use, and
names can be told apart. -/
structure IsClosed (db : Database) : Prop where
  contains_policy : ∀ {zone policy},
    db.Uses zone policy → db.policies.contains policy
  exists_use : ∀ {policy},
    db.policies.contains policy → ∃ zone, db.Uses zone policy
  contains_target : ∀ {link target},
    db.links.get? link = some target → db.zones.contains target
  not_chained : ∀ {link target},
    db.links.get? link = some target → ¬ db.links.contains target
  names_nodup : (db.zones.keys ++ db.links.keys).Nodup
  forms_nodup :
    ((db.zones.keys ++ db.links.keys).map Name.normalize).Nodup
  hashes_nodup : ((db.zones.keys ++ db.links.keys).map Name.hash).Nodup

/-- Every database that is made is closed, whatever the source is. -/
theorem isClosed_of_ofSource {o : Options} {s : Source} {db : Database}
    (h : (Database.ofSource o s).result = .ok db) : db.IsClosed := by
  obtain ⟨_, hchain, hfault, rfl⟩ := ofSource_eq_ok.1 h
  have hclash : (s.restrict o).source.nameClash? = none := by
    unfold Source.fault? at hfault
    simp only [Option.or_eq_none_iff] at hfault
    exact hfault.2.2
  have hpolicy : ∀ era : Era, ∀ policy,
      era.saving.policy? = some policy ↔ era.saving = .policy policy := by
    intro era policy
    cases era.saving <;> simp [Saving.policy?]
  have hnames : ((Passes.of o (s.restrict o).source).zones.kept.keys ++
        (Passes.of o (s.restrict o).source).links.kept.keys).Sublist
      ((s.restrict o).source.zones.keys ++
        (s.restrict o).source.links.keys) := by
    apply List.Sublist.append
    · exact NameMap.keys_sublist fun _ => Passes.contains_source_of_zones
    · apply NameMap.keys_sublist
      intro link hlink
      obtain ⟨target, htarget⟩ := Option.isSome_iff_exists.1 hlink
      exact NameMap.contains_of_get? (Passes.get?_source_of_links htarget)
  obtain ⟨hforms, hhashes⟩ := Source.nameClash?_eq_none.1 hclash
  have hforms' := hforms.sublist (hnames.map Name.normalize)
  constructor
  case contains_policy =>
    rintro zone policy ⟨eras, heras, era, hera, hsaving⟩
    apply Passes.contains_policies.2
    refine ⟨(Passes.get?_zones.1 heras).2 era hera policy hsaving, ?_⟩
    exact Zones.contains_policyNames.2
      ⟨zone, eras, heras, era, hera, (hpolicy era policy).2 hsaving⟩
  case exists_use =>
    intro policy hcontains
    obtain ⟨zone, eras, heras, era, hera, hsaving⟩ :=
      Zones.contains_policyNames.1 (Passes.contains_policies.1 hcontains).2
    exact ⟨zone, eras, heras, era, hera, (hpolicy era policy).1 hsaving⟩
  case contains_target =>
    intro link target hlink
    exact (Passes.get?_links.1 hlink).2
  case not_chained =>
    intro link target hlink htarget
    have hsource : ∀ {name target},
        (Passes.of o (s.restrict o).source).links.kept.get? name =
          some target → s.links.get? name = some target :=
      fun hget => Source.get?_links_restrict (Passes.get?_source_of_links hget)
    obtain ⟨next, hnext⟩ := Option.isSome_iff_exists.1 htarget
    apply Source.linkChain?_eq_none.1 hchain link target (hsource hlink)
    exact NameMap.contains_of_get? (hsource hnext)
  case names_nodup => exact List.Nodup.of_map Name.normalize hforms'
  case forms_nodup => exact hforms'
  case hashes_nodup => exact hhashes.sublist (hnames.map Name.hash)

end Database

/-- A policy that is removed takes two zones and a link with it, and another
policy loses its last use. -/
def prunedText : SourceText where
  name := "t"
  text := "R P 2000 ma - Dec Sun>=27 0 1 D\n" ++
    "R Q 2000 ma - Apr 1 0 1 D\n" ++
    "R R 2000 ma - Apr 1 0 1 D\n" ++
    "Z A 0 P E%s 2001\n" ++
    " 0 Q E%s\n" ++
    "Z B 0 R E%s\n" ++
    "L A C\n" ++
    "L B D\n"

theorem isClosed_prunedText :
    ∃ db, (Database.ofSource twoYears
        (Source.empty.readTexts [] [prunedText]).source).result = .ok db ∧
      db.policies.keys = ["R"] ∧ db.zones.keys = ["B"] ∧
      db.links.keys = ["D"] ∧ db.IsClosed := by
  have hrun : ∃ db ∈ (Database.ofSource twoYears
      (Source.empty.readTexts [] [prunedText]).source).result.toOption,
      db.policies.keys = ["R"] ∧ db.zones.keys = ["B"] ∧
        db.links.keys = ["D"] := by
    decide +kernel
  obtain ⟨db, hdb, hpolicies, hzones, hlinks⟩ := exists_eq_ok_of_toOption hrun
  exact ⟨db, hdb, hpolicies, hzones, hlinks,
    Database.isClosed_of_ofSource hdb⟩

end ZoneTables
