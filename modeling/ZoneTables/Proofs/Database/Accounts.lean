import ZoneTables.Proofs.Database.Made
import ZoneTables.Proofs.Database.Removals

/-!
# Nothing is lost without a reason

A database says of every zone, policy and link of its source either what it
holds of it or why it was removed.  The invariant of the passes is that maps
and findings tell the fate of every entry.  Each pass reviews the entries of
one kind and says nothing about those of the others.
-/

namespace ZoneTables

open Finding

variable {α β γ δ : Type}

/-! ## The fates of all entries -/

/-- Whether a map and the findings so far tell the fate of every entry of a
source, and of nothing else. -/
def TellsFates (subject : Subject) (source : NameMap α) (m : NameMap β)
    (findings : List Finding) : Prop :=
  ∀ name, ∃ fate : Option (Except Removal β),
    fate.isSome = source.contains name ∧
      TellsFate subject name fate m findings

namespace TellsFates

variable {subject : Subject} {source : NameMap α} {m : NameMap β}
  {findings : List Finding}

theorem start (subject : Subject) (m : NameMap α) :
    TellsFates subject m m [] := by
  intro name
  exact ⟨(m.get? name).map .ok, Option.isSome_map, .start subject name m⟩

theorem review (h : TellsFates subject source m findings)
    (f : String → β → Review γ) :
    TellsFates subject source (m.review subject f).kept
      (findings ++ (m.review subject f).findings) := by
  intro name
  obtain ⟨fate, hsome, hfate⟩ := h name
  refine ⟨_, ?_, hfate.review fun _ _ => rfl⟩
  rw [Option.isSome_map, hsome]

theorem map (h : TellsFates subject source m findings)
    (g : String → β → γ) : TellsFates subject source (m.map g) findings := by
  intro name
  obtain ⟨fate, hsome, hfate⟩ := h name
  refine ⟨_, ?_, hfate.map g⟩
  rw [Option.isSome_map, hsome]

theorem skip (h : TellsFates subject source m findings)
    {found : List Finding} (hfound : ∀ name, removalsOf subject name found = []) :
    TellsFates subject source m (findings ++ found) := by
  intro name
  obtain ⟨fate, hsome, hfate⟩ := h name
  refine ⟨fate, hsome, hfate.of_removalsOf_eq ?_⟩
  rw [removalsOf_append, hfound, List.append_nil]

theorem skipReview (h : TellsFates subject source m findings) {kind : Subject}
    (hkind : kind ≠ subject) (f : String → γ → Review δ) (other : NameMap γ) :
    TellsFates subject source m
      (findings ++ (other.review kind f).findings) :=
  h.skip fun _ => NameMap.removalsOf_review_of_ne hkind f other

end TellsFates

/-! ## The passes -/

structure TellsAll (s : Source) (zones : NameMap α) (policies : NameMap β)
    (links : NameMap γ) (findings : List Finding) : Prop where
  zones : TellsFates .zone s.zones zones findings
  policies : TellsFates .policy s.policies policies findings
  links : TellsFates .link s.links links findings

namespace TellsAll

variable {s : Source} {zones : NameMap α} {policies : NameMap β}
  {links : NameMap γ} {findings : List Finding}

theorem start (s : Source) : TellsAll s s.zones s.policies s.links [] :=
  ⟨.start .zone s.zones, .start .policy s.policies, .start .link s.links⟩

theorem reviewZones (h : TellsAll s zones policies links findings)
    (f : String → α → Review δ) :
    TellsAll s (zones.review .zone f).kept policies links
      (findings ++ (zones.review .zone f).findings) where
  zones := h.zones.review f
  policies := h.policies.skipReview (by decide) f zones
  links := h.links.skipReview (by decide) f zones

theorem reviewPolicies (h : TellsAll s zones policies links findings)
    (f : String → β → Review δ) :
    TellsAll s zones (policies.review .policy f).kept links
      (findings ++ (policies.review .policy f).findings) where
  zones := h.zones.skipReview (by decide) f policies
  policies := h.policies.review f
  links := h.links.skipReview (by decide) f policies

theorem reviewLinks (h : TellsAll s zones policies links findings)
    (f : String → γ → Review δ) :
    TellsAll s zones policies (links.review .link f).kept
      (findings ++ (links.review .link f).findings) where
  zones := h.zones.skipReview (by decide) f links
  policies := h.policies.skipReview (by decide) f links
  links := h.links.review f

theorem mapZones (h : TellsAll s zones policies links findings)
    (g : String → α → δ) :
    TellsAll s (zones.map g) policies links findings :=
  ⟨h.zones.map g, h.policies, h.links⟩

theorem mapPolicies (h : TellsAll s zones policies links findings)
    (g : String → β → δ) :
    TellsAll s zones (policies.map g) links findings :=
  ⟨h.zones, h.policies.map g, h.links⟩

theorem skip (h : TellsAll s zones policies links findings)
    {found : List Finding}
    (hfound : ∀ subject name, removalsOf subject name found = []) :
    TellsAll s zones policies links (findings ++ found) :=
  ⟨h.zones.skip (hfound .zone), h.policies.skip (hfound .policy),
    h.links.skip (hfound .link)⟩

end TellsAll

theorem Source.restrict_tellsAll (o : Options) (s : Source) :
    TellsAll s (s.restrict o).source.zones (s.restrict o).source.policies
      (s.restrict o).source.links (s.restrict o).findings :=
  ((TellsAll.start s).reviewZones _).reviewLinks _

theorem Passes.tellsAll (o : Options) {s source : Source}
    {found : List Finding}
    (h : TellsAll s source.zones source.policies source.links found) :
    TellsAll s (Passes.of o source).zones.kept
      (Passes.of o source).policies.kept (Passes.of o source).links.kept
      (found ++ (Passes.of o source).findings) := by
  unfold Passes.findings
  simp only [← List.append_assoc]
  have husableZones : TellsAll s (Passes.of o source).usableZones.kept
      (Passes.of o source).resolvedPolicies.kept source.links _ :=
    (((((h.mapZones _).reviewZones _).reviewZones _).reviewZones _)
      |>.reviewPolicies _).reviewZones _
  have hsimplePolicies : TellsAll s (Passes.of o source).usableZones.kept
      (Passes.of o source).simplePolicies.kept
      (Passes.of o source).usableLinks.kept _ :=
    (((husableZones.reviewLinks _).mapPolicies _).reviewPolicies _)
      |>.reviewPolicies _
  exact ((hsimplePolicies.reviewZones _).reviewLinks _).reviewPolicies _

/-! ## Made databases -/

/-- Whether every name of a source is either kept or among the removed, where it
has exactly one reason, and no other name is in either. -/
structure Accounted (source : NameMap α) (kept : NameMap β)
    (removed : CommentMap) : Prop where
  covers : ∀ name,
    source.contains name ↔ kept.contains name ∨ removed.contains name
  disjoint : ∀ name, ¬(kept.contains name ∧ removed.contains name)
  reason : ∀ name texts, removed.get? name = some texts →
    ∃ why : Removal, texts = NameSet.insert .empty why.message

theorem TellsFates.accounted {subject : Subject} {source : NameMap α}
    {m : NameMap β} {findings : List Finding}
    (h : TellsFates subject source m findings) :
    Accounted source m (.removals subject findings) where
  covers name := by
    obtain ⟨fate, hsome, hfate⟩ := h name
    unfold NameMap.contains at hsome ⊢
    rw [← hsome, hfate.value, hfate.get?_removals]
    rcases fate with _ | _ | _ <;> simp [removalReason?, Except.toOption]
  disjoint name := by
    obtain ⟨fate, _, hfate⟩ := h name
    unfold NameMap.contains
    rw [hfate.value, hfate.get?_removals]
    rcases fate with _ | _ | _ <;> simp [removalReason?, Except.toOption]
  reason name texts htexts := by
    obtain ⟨fate, _, hfate⟩ := h name
    rw [hfate.get?_removals, Option.map_eq_some_iff] at htexts
    obtain ⟨why, _, rfl⟩ := htexts
    exact ⟨why, rfl⟩

theorem Database.make_tellsAll (o : Options) (s : Source) :
    let made := make o (s.restrict o).source (s.restrict o).findings
    TellsAll s made.database.zones made.database.policies made.database.links
      made.findings :=
  (Passes.tellsAll o (s.restrict_tellsAll o)).skip fun _ _ =>
    removalsOf_anomalyFindings _ _

/-- What becomes of a source is accounted for: each of its zones, policies and
links is in the database or among the removed ones, never in both, a removed one
has exactly one reason, and nothing else is in either. -/
theorem Database.entries_accounted {o : Options} {s : Source} {db : Database}
    (h : (ofSource o s).result = .ok db) :
    Accounted s.zones db.zones db.comments.removedZones ∧
      Accounted s.policies db.policies db.comments.removedPolicies ∧
      Accounted s.links db.links db.comments.removedLinks := by
  obtain ⟨_, _, _, rfl⟩ := ofSource_eq_ok.1 h
  have hall := make_tellsAll o s
  exact ⟨hall.zones.accounted, hall.policies.accounted, hall.links.accounted⟩

/-- A zone that goes with its policy, and a link that goes with the zone; what
is left has a policy and a link of its own, and one policy is not used. -/
def fallingZoneText : SourceText where
  name := "t"
  text := oneRuleText.text ++
    "R Q 2000 2001 - Feb 29 0 1 D\n" ++
    "Z Y 1 Q F%s\n" ++
    "R U 2000 o - Mar 1 0 1 D\n" ++
    "L Y B\n" ++
    "L Z A\n"

theorem entries_accounted_fallingZoneText :
    ∃ db, MadeFrom twoYears [fallingZoneText] db ∧
      db.zones.keys = ["Z"] ∧ db.policies.keys = ["P"] ∧
      db.links.keys = ["A"] ∧
      db.comments.removedZones.keys = ["Y"] ∧
      db.comments.removedPolicies.keys = ["Q", "U"] ∧
      db.comments.removedLinks.keys = ["B"] ∧
      (∃ why : Removal, db.comments.removedZones.get? "Y" =
        some (NameSet.insert .empty why.message)) ∧
      ¬(db.policies.contains "Q" ∧ db.comments.removedPolicies.contains "Q") ∧
      (∃ why : Removal, db.comments.removedLinks.get? "B" =
        some (NameSet.insert .empty why.message)) := by
  have hrun : (Source.empty.readTexts [] [fallingZoneText]).fault = none ∧
      ∃ db ∈ (Database.ofSource twoYears
        (Source.empty.readTexts [] [fallingZoneText]).source).result.toOption,
        db.zones.keys = ["Z"] ∧ db.policies.keys = ["P"] ∧
        db.links.keys = ["A"] ∧
        db.comments.removedZones.keys = ["Y"] ∧
        db.comments.removedPolicies.keys = ["Q", "U"] ∧
        db.comments.removedLinks.keys = ["B"] := by
    decide +kernel
  obtain ⟨hread, hmade⟩ := hrun
  obtain ⟨db, hdb, hzones, hpolicies, hlinks, hgone⟩ :=
    exists_eq_ok_of_toOption hmade
  obtain ⟨hzonesRemoved, hpoliciesRemoved, hlinksRemoved⟩ := hgone
  obtain ⟨hzone, hpolicy, hlink⟩ := Database.entries_accounted hdb
  have hY : db.comments.removedZones.contains "Y" := by
    rw [NameMap.contains_iff_mem_keys, hzonesRemoved]
    exact List.mem_singleton_self "Y"
  have hB : db.comments.removedLinks.contains "B" := by
    rw [NameMap.contains_iff_mem_keys, hlinksRemoved]
    exact List.mem_singleton_self "B"
  obtain ⟨reasons, hreasons⟩ := Option.isSome_iff_exists.1 hY
  obtain ⟨linkReasons, hlinkReasons⟩ := Option.isSome_iff_exists.1 hB
  obtain ⟨why, rfl⟩ := hzone.reason "Y" reasons hreasons
  obtain ⟨linkWhy, rfl⟩ := hlink.reason "B" linkReasons hlinkReasons
  exact ⟨db, ⟨hread, hdb⟩, hzones, hpolicies, hlinks, hzonesRemoved,
    hpoliciesRemoved, hlinksRemoved, ⟨why, hreasons⟩, hpolicy.disjoint "Q",
    ⟨linkWhy, hlinkReasons⟩⟩

end ZoneTables
