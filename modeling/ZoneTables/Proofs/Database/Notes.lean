import ZoneTables.Proofs.Database.Inclusion
import ZoneTables.Proofs.Database.Survival

/-!
# Notes on what is not kept

A note is taken when an entry is reviewed, and is not taken back if the entry is
removed later, be it by the same review.  So the notes on a zone or a policy are
those that its reviews took, up to the one that removed it, and its anomalies if
it is kept.
-/

namespace ZoneTables

open Finding

variable {α β γ : Type}

/-! ## Notes about one entry -/

namespace Finding

def noteOf? (subject : Subject) (name : String) : Finding → Option Note
  | noted kind other note =>
    if kind = subject ∧ other = name ∧ note.isComment then some note else none
  | removed .. => none

def notesOf (subject : Subject) (name : String) (findings : List Finding) :
    List Note :=
  findings.filterMap (noteOf? subject name)

variable {subject : Subject} {name : String}

@[simp] theorem notesOf_append (l r : List Finding) :
    notesOf subject name (l ++ r) =
      notesOf subject name l ++ notesOf subject name r :=
  List.filterMap_append

theorem notesOf_flatMap (l : List β) (f : β → List Finding) :
    notesOf subject name (l.flatMap f) =
      l.flatMap fun b => notesOf subject name (f b) :=
  List.filterMap_flatMap

theorem notesOf_noted (kind : Subject) (other : String) (notes : List Note) :
    notesOf subject name (notes.map (noted kind other)) =
      if other = name then
        if kind = subject then notes.filter Note.isComment else []
      else [] := by
  unfold notesOf
  rw [List.filterMap_map]
  by_cases hname : other = name <;> by_cases hkind : kind = subject
  · rw [if_pos hname, if_pos hkind, ← List.filterMap_eq_filter]
    congr 1
    funext note
    simp [noteOf?, hname, hkind, Option.guard]
  all_goals simp [noteOf?, hname, hkind, Function.comp_def]

end Finding

namespace Review

def comments (r : Review α) : List Note := r.notes.filter Note.isComment

theorem comments_ite_remove {c : Prop} [Decidable c] (r : Review α)
    (why : Removal) :
    (if c then r else remove why).comments = if c then r.comments else [] := by
  split <;> rfl

/-- What is noted before a removal stays. -/
theorem comments_bind (r : Review α) (f : α → Review β) :
    (r >>= f).comments =
      r.comments ++ r.kept?.elim [] fun a => (f a).comments := by
  change (andThen r f).comments = _
  unfold andThen comments kept?
  cases r.result with
  | error why => exact (List.append_nil _).symm
  | ok a => exact List.filter_append _ _

variable {subject : Subject} {name : String}

theorem notesOf_findings (kind : Subject) (other : String) (r : Review α) :
    notesOf subject name (r.findings kind other) =
      if other = name then
        if kind = subject then r.comments else []
      else [] := by
  unfold findings comments
  rw [notesOf_append, notesOf_noted]
  cases r.result <;> simp [notesOf, noteOf?]

end Review

namespace NameMap

variable {subject kind : Subject} {name : String}

theorem notesOf_review (f : String → α → Review β) (m : NameMap α) :
    notesOf subject name (m.review kind f).findings =
      if kind = subject then
        (m.get? name).elim [] fun a => (f name a).comments
      else [] := by
  unfold review
  dsimp only
  rw [notesOf_flatMap]
  simp only [Review.notesOf_findings]
  rw [flatMap_entries _ name fun r : Review β =>
    if kind = subject then r.comments else [], get?_map]
  by_cases hkind : kind = subject <;> cases m.get? name <;> simp [hkind]

theorem notesOf_review_of_ne (hkind : kind ≠ subject)
    (f : String → α → Review β) (m : NameMap α) :
    notesOf subject name (m.review kind f).findings = [] := by
  rw [notesOf_review, if_neg hkind]

theorem notesOf_review_eq_nil {f : String → α → Review β}
    (hf : ∀ a, (f name a).comments = []) (m : NameMap α) :
    notesOf subject name (m.review kind f).findings = [] := by
  rw [notesOf_review]
  cases m.get? name <;> simp [hf]

theorem notesOf_review_bind (f : String → α → Review β)
    (g : String → β → Review γ) (m : NameMap α) :
    notesOf subject name (m.review kind f).findings ++
        notesOf subject name ((m.review kind f).kept.review kind g).findings =
      notesOf subject name
        (m.review kind fun name a => f name a >>= g name).findings := by
  rw [notesOf_review, notesOf_review, notesOf_review, get?_review]
  by_cases hkind : kind = subject
  · simp only [if_pos hkind]
    cases m.get? name with
    | none => rfl
    | some a => exact (Review.comments_bind _ _).symm
  · simp only [if_neg hkind, List.append_nil]

end NameMap

theorem CommentMap.contains_notes {subject : Subject} {name : String}
    (findings : List Finding) :
    (notes subject findings).contains name ↔
      notesOf subject name findings ≠ [] := by
  have hfold : ∀ m : CommentMap, (findings.foldl
      (fun m finding =>
        match finding with
        | .noted kind name note =>
          if kind = subject ∧ note.isComment then m.add name note.message else m
        | .removed .. => m) m).contains name ↔
      m.contains name ∨ notesOf subject name findings ≠ [] := by
    induction findings with
    | nil => exact fun m => (or_iff_left fun h => h rfl).symm
    | cons finding findings ih =>
      intro m
      rw [List.foldl_cons, ih]
      unfold notesOf
      cases finding with
      | removed kind other why => rfl
      | noted kind other note =>
        by_cases hnote : kind = subject ∧ note.isComment
        · by_cases hname : other = name
          · subst hname
            simp [noteOf?, hnote, CommentMap.add, NameMap.contains]
          · simp [noteOf?, hnote, hname, CommentMap.add, NameMap.contains,
              Ne.symm hname]
        · have hnone : noteOf? subject name (.noted kind other note) = none :=
            if_neg fun h => hnote ⟨h.1, h.2.2⟩
          dsimp only
          rw [if_neg hnote, List.filterMap_cons_none hnone]
  exact (hfold .empty).trans (or_iff_right Bool.false_ne_true)

/-! ## The passes -/

def reviewKeptEras (o : Options) (kept : List SourceEra) :
    Review (List Era) := do
  let eras ← resolveZone o.widths o.strict kept
  if o.widths.simpleRules then reviewSimpleZone eras else .keep eras

/-- All reviews of the eras of a zone up to the one that looks after their
policies. -/
def reviewEras (o : Options) (sources : List SourceEra) : Review (List Era) :=
  (TrimmedZone.of o.window sources).review o.window >>= reviewKeptEras o

namespace Passes

variable {o : Options} {s : Source} {name : String}

theorem get?_simpleZones_iff {eras : List Era} :
    (Passes.of o s).simpleZones.kept.get? name = some eras ↔
      ∃ sources, s.zones.get? name = some sources ∧
        (reviewEras o sources).result = .ok eras := by
  have hsimple : (Passes.of o s).simpleZones.kept.get? name = some eras ↔
      ∃ resolved, (Passes.of o s).resolvedZones.kept.get? name = some resolved ∧
        (if o.widths.simpleRules then reviewSimpleZone resolved
          else .keep resolved).result = .ok eras :=
    NameMap.get?_kept_review
  unfold reviewEras reviewKeptEras
  simp only [hsimple, get?_resolvedZones, get?_inWindow,
    Review.result_bind_eq_ok, TrimmedZone.review_eq_ok]
  constructor
  · rintro ⟨resolved, ⟨kept, ⟨sources, hsources, hkept⟩, hresolve⟩, hsimple⟩
    exact ⟨sources, hsources, kept, hkept, resolved, hresolve, hsimple⟩
  · rintro ⟨sources, hsources, kept, hkept, resolved, hresolve, hsimple⟩
    exact ⟨resolved, ⟨kept, ⟨sources, hsources, hkept⟩, hresolve⟩, hsimple⟩

section Silent

variable {kind : Subject}

theorem notesOf_reviewPolicies (policies : Policies) (zones : Zones) :
    notesOf kind name (Zones.reviewPolicies policies zones).findings = [] := by
  unfold Zones.reviewPolicies
  refine NameMap.notesOf_review_eq_nil (fun eras => ?_) zones
  split <;> rfl

theorem notesOf_reviewTargets (zones : Zones) (links : Links) :
    notesOf kind name (Links.reviewTargets zones links).findings = [] :=
  NameMap.notesOf_review_eq_nil
    (fun _ => (Review.comments_ite_remove _ _).trans (ite_self _)) links

/-- That rules are dropped is of interest to the log only. -/
theorem comments_reviewSelection (window : Window) (selection : RuleSelection) :
    (selection.review window).comments = [] := by
  unfold RuleSelection.review
  split
  · rfl
  · unfold Review.comments
    rw [List.filter_map, List.map_eq_nil_iff, List.filter_eq_nil_iff]
    exact fun _ _ => nofun

theorem comments_reviewSimplePolicy (rules : List Rule) :
    (if o.widths.simpleRules then reviewSimplePolicy rules
      else .keep rules).comments = [] := by
  unfold reviewSimplePolicy
  split
  · split <;> rfl
  · rfl

theorem notesOf_findings :
    notesOf kind name (Passes.of o s).findings =
      notesOf kind name (Passes.of o s).inWindow.findings ++
        (notesOf kind name (Passes.of o s).resolvedZones.findings ++
          notesOf kind name (Passes.of o s).simpleZones.findings) ++
        notesOf kind name (Passes.of o s).resolvedPolicies.findings := by
  have husable : notesOf kind name (Passes.of o s).usableZones.findings = [] :=
    notesOf_reviewPolicies _ _
  have husableLinks : notesOf kind name
      (Passes.of o s).usableLinks.findings = [] :=
    notesOf_reviewTargets _ _
  have hselected : notesOf kind name
      (Passes.of o s).selectedPolicies.findings = [] :=
    NameMap.notesOf_review_eq_nil (comments_reviewSelection o.window) _
  have hsimple : notesOf kind name
      (Passes.of o s).simplePolicies.findings = [] :=
    NameMap.notesOf_review_eq_nil comments_reviewSimplePolicy _
  have hzones : notesOf kind name (Passes.of o s).zones.findings = [] :=
    notesOf_reviewPolicies _ _
  have hlinks : notesOf kind name (Passes.of o s).links.findings = [] :=
    notesOf_reviewTargets _ _
  have hpolicies : notesOf kind name (Passes.of o s).policies.findings = [] :=
    NameMap.notesOf_review_eq_nil
      (fun _ => (Review.comments_ite_remove _ _).trans (ite_self _)) _
  unfold findings
  simp only [notesOf_append, husable, husableLinks, hselected, hsimple, hzones,
    hlinks, hpolicies, List.append_nil, List.append_assoc]

theorem notesOf_findings_of_ne (hzone : .zone ≠ kind) :
    notesOf kind name (Passes.of o s).findings =
      notesOf kind name (Passes.of o s).resolvedPolicies.findings := by
  have hwindow : notesOf kind name (Passes.of o s).inWindow.findings = [] :=
    NameMap.notesOf_review_of_ne hzone _ _
  have hresolved : notesOf kind name
      (Passes.of o s).resolvedZones.findings = [] :=
    NameMap.notesOf_review_of_ne hzone _ _
  have hsimple : notesOf kind name (Passes.of o s).simpleZones.findings = [] :=
    NameMap.notesOf_review_of_ne hzone _ _
  rw [notesOf_findings, hwindow, hresolved, hsimple]
  rfl

end Silent

theorem notesOf_zone :
    notesOf .zone name (Passes.of o s).findings =
      (s.zones.get? name).elim [] fun sources =>
        (reviewEras o sources).comments := by
  -- the three reviews of eras are joined from the last one on
  have hpolicies : notesOf .zone name
      (Passes.of o s).resolvedPolicies.findings = [] :=
    NameMap.notesOf_review_of_ne (by decide) _ _
  calc
    _ = notesOf .zone name (Passes.of o s).inWindow.findings ++
        (notesOf .zone name (Passes.of o s).resolvedZones.findings ++
          notesOf .zone name (Passes.of o s).simpleZones.findings) := by
      rw [notesOf_findings, hpolicies, List.append_nil]
    _ = notesOf .zone name (Passes.of o s).inWindow.findings ++
        notesOf .zone name ((Passes.of o s).inWindow.kept.review .zone
          fun _ kept => reviewKeptEras o kept).findings :=
      congrArg _ (NameMap.notesOf_review_bind _ _ _)
    _ = notesOf .zone name ((s.zones.map fun _ eras =>
          TrimmedZone.of o.window eras).review .zone
            fun _ zone =>
              zone.review o.window >>= reviewKeptEras o).findings :=
      NameMap.notesOf_review_bind _ _ _
    _ = _ := by
      rw [NameMap.notesOf_review, if_pos rfl, NameMap.get?_map]
      cases s.zones.get? name <;> rfl

theorem notesOf_policy :
    notesOf .policy name (Passes.of o s).findings =
      (s.policies.get? name).elim [] fun sources =>
        if (Zones.policyNames (Passes.of o s).simpleZones.kept).contains name then
          (resolvePolicy o.widths o.strict sources).comments
        else [] := by
  have hpolicies : notesOf .policy name
      (Passes.of o s).resolvedPolicies.findings =
        if Subject.policy = .policy then
          (s.policies.get? name).elim [] fun sources =>
            (if (Zones.policyNames (Passes.of o s).simpleZones.kept).contains name
              then resolvePolicy o.widths o.strict sources
              else .remove .unused).comments
        else [] :=
    NameMap.notesOf_review _ _
  rw [notesOf_findings_of_ne (by decide), hpolicies, if_pos rfl]
  simp only [Review.comments_ite_remove]

theorem notesOf_link : notesOf .link name (Passes.of o s).findings = [] := by
  rw [notesOf_findings_of_ne (by decide)]
  exact NameMap.notesOf_review_of_ne (by decide) _ _

end Passes

/-! ## Anomalies -/

theorem Rule.isComment_of_anomaly? {r : Rule} {note : Note}
    (h : r.anomaly? = some note) : note.isComment := by
  unfold anomaly? at h
  split at h
  · cases h
  · split at h
    · cases h
      rfl
    · split at h
      · cases h
        rfl
      · cases h

theorem Era.isComment_of_mem_anomalies {era : Era} {note : Note}
    (h : note ∈ era.anomalies) : note.isComment := by
  unfold anomalies at h
  rcases List.mem_append.1 h with h | h
  · split at h
    · rw [List.mem_singleton.1 h]
      rfl
    · cases h
  · split at h
    · split at h
      · rw [List.mem_singleton.1 h]
        rfl
      · cases h
    · cases h

theorem notesOf_entries {kind subject : Subject} {name : String}
    {f : α → List Note} (hf : ∀ a, ∀ note ∈ f a, note.isComment)
    (m : NameMap α) :
    notesOf subject name (m.entries.flatMap fun (name, a) =>
        (f a).map (noted kind name)) =
      if kind = subject then (m.get? name).elim [] f else [] := by
  have hall : ∀ a, (f a).filter Note.isComment = f a :=
    fun a => List.filter_eq_self.2 (hf a)
  rw [notesOf_flatMap]
  simp only [notesOf_noted, hall]
  rw [NameMap.flatMap_entries _ name fun a =>
    if kind = subject then f a else []]
  by_cases hkind : kind = subject
  · simp only [if_pos hkind]
  · simp only [if_neg hkind]
    cases m.get? name <;> rfl

theorem notesOf_anomalyFindings (subject : Subject) (name : String)
    (zones : Zones) (policies : Policies) :
    notesOf subject name (anomalyFindings zones policies) =
      (if .policy = subject then
        (policies.get? name).elim [] (·.filterMap Rule.anomaly?) else []) ++
      if .zone = subject then
        (zones.get? name).elim [] (·.flatMap Era.anomalies) else [] := by
  have hpolicy : ∀ rules : List Rule, ∀ note ∈ rules.filterMap Rule.anomaly?,
      note.isComment := by
    intro rules note hnote
    obtain ⟨r, _, hr⟩ := List.mem_filterMap.1 hnote
    exact Rule.isComment_of_anomaly? hr
  have hzone : ∀ eras : List Era, ∀ note ∈ eras.flatMap Era.anomalies,
      note.isComment := by
    intro eras note hnote
    obtain ⟨era, _, hera⟩ := List.mem_flatMap.1 hnote
    exact Era.isComment_of_mem_anomalies hera
  unfold anomalyFindings
  rw [notesOf_append, notesOf_entries hpolicy, notesOf_entries hzone]

/-! ## Databases -/

namespace Source

/-- Whether something is noted of a zone while its eras are reviewed. -/
def NotesZone (o : Options) (s : Source) (zone : String) : Prop :=
  ∃ sources, s.zones.get? zone = some sources ∧ o.includes zone ∧
    (reviewEras o sources).comments ≠ []

def Follows (o : Options) (s : Source) (policy : String) : Prop :=
  ∃ zone sources eras, s.zones.get? zone = some sources ∧ o.includes zone ∧
    (reviewEras o sources).result = .ok eras ∧
    ∃ era ∈ eras, era.saving = .policy policy

def NotesPolicy (o : Options) (s : Source) (policy : String) : Prop :=
  ∃ sources, s.policies.get? policy = some sources ∧ s.Follows o policy ∧
    (resolvePolicy o.widths o.strict sources).comments ≠ []

end Source

/-- Whether nothing is noted of what is not kept. -/
structure Database.NotesKeptOnly (db : Database) : Prop where
  zones : ∀ zone, db.comments.notableZones.contains zone →
    db.zones.contains zone ∧ ¬ db.comments.removedZones.contains zone
  policies : ∀ policy, db.comments.notablePolicies.contains policy →
    db.policies.contains policy ∧ ¬ db.comments.removedPolicies.contains policy
  links : ∀ link, ¬ db.comments.notableLinks.contains link

section Made

variable {o : Options} {s : Source} {db : Database} {name : String}

theorem notesOf_restrict (kind : Subject) :
    notesOf kind name (s.restrict o).findings = [] := by
  unfold Source.restrict
  dsimp only
  rw [notesOf_append, List.append_eq_nil_iff]
  refine ⟨NameMap.notesOf_review_eq_nil (fun _ =>
      (Review.comments_ite_remove _ _).trans (ite_self _)) _,
    NameMap.notesOf_review_eq_nil (fun _ => ?_) _⟩
  split
  · rfl
  · split <;> rfl

theorem Database.contains_notes_make (kind : Subject) :
    (CommentMap.notes kind (make o (s.restrict o).source
        (s.restrict o).findings).findings).contains name ↔
      notesOf kind name (Passes.of o (s.restrict o).source).findings ≠ [] ∨
        notesOf kind name (anomalyFindings
          (Passes.of o (s.restrict o).source).zones.kept
          (Passes.of o (s.restrict o).source).policies.kept) ≠ [] := by
  unfold make
  dsimp only
  rw [CommentMap.contains_notes, notesOf_append, notesOf_append,
    notesOf_restrict, List.nil_append, Ne, List.append_eq_nil_iff, not_and_or]

theorem Source.notesZone_iff :
    s.NotesZone o name ↔
      notesOf .zone name (Passes.of o (s.restrict o).source).findings ≠ [] := by
  unfold NotesZone
  rw [Passes.notesOf_zone, get?_zones_restrict]
  by_cases hincluded : o.includes name
  · rw [if_pos hincluded]
    cases s.zones.get? name <;> simp [hincluded]
  · simp [hincluded]

theorem Source.follows_iff :
    s.Follows o name ↔
      (Zones.policyNames
        (Passes.of o (s.restrict o).source).simpleZones.kept).contains name := by
  have hzone : ∀ zone eras,
      (Passes.of o (s.restrict o).source).simpleZones.kept.get? zone =
          some eras ↔
        ∃ sources, s.zones.get? zone = some sources ∧ o.includes zone ∧
          (reviewEras o sources).result = .ok eras := by
    intro zone eras
    rw [Passes.get?_simpleZones_iff, get?_zones_restrict]
    by_cases hincluded : o.includes zone
    · simp [hincluded]
    · simp [hincluded]
  have hfollows : ∀ eras : List Era,
      (∃ era ∈ eras, era.saving.policy? = some name) ↔
        ∃ era ∈ eras, era.saving = .policy name := by
    intro eras
    rw [← mem_policies_iff, List.mem_filterMap]
  rw [Zones.contains_policyNames]
  unfold Follows
  simp only [hzone, hfollows]
  constructor
  · rintro ⟨zone, sources, eras, hsources, hincluded, heras, hera⟩
    exact ⟨zone, eras, ⟨sources, hsources, hincluded, heras⟩, hera⟩
  · rintro ⟨zone, eras, ⟨sources, hsources, hincluded, heras⟩, hera⟩
    exact ⟨zone, sources, eras, hsources, hincluded, heras, hera⟩

theorem Source.notesPolicy_iff :
    s.NotesPolicy o name ↔
      notesOf .policy name
        (Passes.of o (s.restrict o).source).findings ≠ [] := by
  have hpolicies : (s.restrict o).source.policies = s.policies := rfl
  unfold NotesPolicy
  rw [Passes.notesOf_policy, follows_iff, hpolicies]
  cases s.policies.get? name <;> simp

namespace Database

theorem contains_notableZones (zone : String) :
    let db := (make o (s.restrict o).source (s.restrict o).findings).database
    db.comments.notableZones.contains zone ↔
      s.NotesZone o zone ∨ ∃ eras, db.zones.get? zone = some eras ∧
        ∃ era ∈ eras, era.anomalies ≠ [] := by
  intro db
  have hnotes : db.comments.notableZones = .notes .zone
      (make o (s.restrict o).source (s.restrict o).findings).findings := rfl
  have hzones : db.zones = (Passes.of o (s.restrict o).source).zones.kept := rfl
  rw [hnotes, contains_notes_make, ← Source.notesZone_iff,
    notesOf_anomalyFindings, if_neg (by decide), if_pos rfl, List.nil_append,
    ← hzones]
  refine or_congr_right ?_
  cases db.zones.get? zone <;> simp

theorem contains_notablePolicies (policy : String) :
    let db := (make o (s.restrict o).source (s.restrict o).findings).database
    db.comments.notablePolicies.contains policy ↔
      s.NotesPolicy o policy ∨ ∃ rules, db.policies.get? policy = some rules ∧
        ∃ r ∈ rules, r.anomaly?.isSome := by
  intro db
  have hnotes : db.comments.notablePolicies = .notes .policy
      (make o (s.restrict o).source (s.restrict o).findings).findings := rfl
  have hpolicies : db.policies =
      (Passes.of o (s.restrict o).source).policies.kept := rfl
  rw [hnotes, contains_notes_make, ← Source.notesPolicy_iff,
    notesOf_anomalyFindings, if_pos rfl, if_neg (by decide), List.append_nil,
    ← hpolicies]
  refine or_congr_right ?_
  cases db.policies.get? policy <;> simp [Option.isSome_iff_ne_none]

theorem contains_notableLinks (link : String) :
    let db := (make o (s.restrict o).source (s.restrict o).findings).database
    ¬ db.comments.notableLinks.contains link := by
  intro db
  have hnotes : db.comments.notableLinks = .notes .link
      (make o (s.restrict o).source (s.restrict o).findings).findings := rfl
  rw [hnotes, contains_notes_make, notesOf_anomalyFindings,
    if_neg (by decide), if_neg (by decide), Passes.notesOf_link]
  simp

end Database

end Made

/-- What is noted of zones and policies is what was noted while they were
reviewed, whether they are kept or not, and what is unusual about those that are
kept.  So nothing is noted of what is not kept exactly if each zone and each
policy is kept that something was noted of. -/
theorem Database.notable_iff {o : Options} {s : Source} {db : Database}
    (h : (ofSource o s).result = .ok db) :
    (∀ zone, db.comments.notableZones.contains zone ↔
      s.NotesZone o zone ∨ ∃ eras, db.zones.get? zone = some eras ∧
        ∃ era ∈ eras, era.anomalies ≠ []) ∧
    (∀ policy, db.comments.notablePolicies.contains policy ↔
      s.NotesPolicy o policy ∨ ∃ rules, db.policies.get? policy = some rules ∧
        ∃ r ∈ rules, r.anomaly?.isSome) ∧
    (db.NotesKeptOnly ↔
      (∀ zone, s.NotesZone o zone → db.zones.contains zone) ∧
      ∀ policy, s.NotesPolicy o policy → db.policies.contains policy) := by
  obtain ⟨_, _, _, rfl⟩ := ofSource_eq_ok.1 h
  have hall := make_tellsAll o s
  refine ⟨contains_notableZones, contains_notablePolicies, ?_, ?_⟩
  · intro hkept
    exact ⟨fun zone hzone =>
        (hkept.zones zone ((contains_notableZones zone).2 (.inl hzone))).1,
      fun policy hpolicy =>
        (hkept.policies policy
          ((contains_notablePolicies policy).2 (.inl hpolicy))).1⟩
  · rintro ⟨hzones, hpolicies⟩
    refine ⟨fun zone hzone => ?_, fun policy hpolicy => ?_,
      contains_notableLinks⟩
    · have hkept : (make o (s.restrict o).source
          (s.restrict o).findings).database.zones.contains zone := by
        rcases (contains_notableZones zone).1 hzone with hnoted | ⟨eras, heras, _⟩
        · exact hzones zone hnoted
        · exact NameMap.contains_of_get? heras
      exact ⟨hkept, fun hgone =>
        hall.zones.accounted.disjoint zone ⟨hkept, hgone⟩⟩
    · have hkept : (make o (s.restrict o).source
          (s.restrict o).findings).database.policies.contains policy := by
        rcases (contains_notablePolicies policy).1 hpolicy with
          hnoted | ⟨rules, hrules, _⟩
        · exact hpolicies policy hnoted
        · exact NameMap.contains_of_get? hrules
      exact ⟨hkept, fun hgone =>
        hall.policies.accounted.disjoint policy ⟨hkept, hgone⟩⟩

/-- A zone that loses an era before its others are found out of order, and a
policy of which one rule is cut before another one is found without a day. -/
def notedEarlyText : SourceText where
  name := "t"
  text := oneRuleText.text ++
    "R Q 2000 o - Mar 1 0:00:30 1 D\n" ++
    "R Q 2000 o - Feb 30 0 0 S\n" ++
    "Z X 0 Q F%s\n" ++
    "Z Y 0 - A 1990\n" ++
    " 1 - B 2001 Mar\n" ++
    " 2 - C 2001 Feb\n" ++
    " 3 - D\n"

theorem notable_iff_notedEarlyText :
    ∃ s db, (Database.ofSource twoYears s).result = .ok db ∧
      db.zones.keys = ["Z"] ∧ db.policies.keys = ["P"] ∧
      db.comments.notableZones.keys = ["Y"] ∧
      db.comments.notablePolicies.keys = ["Q"] ∧
      s.NotesZone twoYears "Y" ∧ s.NotesPolicy twoYears "Q" ∧
      (db.NotesKeptOnly ↔
        (∀ zone, s.NotesZone twoYears zone → db.zones.contains zone) ∧
        ∀ policy, s.NotesPolicy twoYears policy →
          db.policies.contains policy) := by
  have hrun : ∃ db ∈ (Database.ofSource twoYears
      (Source.empty.readTexts [] [notedEarlyText]).source).result.toOption,
      db.zones.keys = ["Z"] ∧ db.policies.keys = ["P"] ∧
        db.comments.notableZones.keys = ["Y"] ∧
        db.comments.notablePolicies.keys = ["Q"] := by
    decide +kernel
  obtain ⟨db, hdb, hzones, hpolicies, hnotableZones, hnotablePolicies⟩ :=
    exists_eq_ok_of_toOption hrun
  obtain ⟨hzone, hpolicy, hkept⟩ := Database.notable_iff hdb
  have hY : db.comments.notableZones.contains "Y" := by
    rw [NameMap.contains_iff_mem_keys, hnotableZones]
    exact List.mem_singleton_self "Y"
  have hQ : db.comments.notablePolicies.contains "Q" := by
    rw [NameMap.contains_iff_mem_keys, hnotablePolicies]
    exact List.mem_singleton_self "Q"
  refine ⟨_, db, hdb, hzones, hpolicies, hnotableZones, hnotablePolicies,
    ((hzone "Y").1 hY).resolve_right ?_,
    ((hpolicy "Q").1 hQ).resolve_right ?_, hkept⟩
  · rintro ⟨eras, heras, _⟩
    have hkeys := NameMap.contains_of_get? heras
    rw [NameMap.contains_iff_mem_keys, hzones] at hkeys
    exact absurd hkeys (by decide)
  · rintro ⟨rules, hrules, _⟩
    have hkeys := NameMap.contains_of_get? hrules
    rw [NameMap.contains_iff_mem_keys, hpolicies] at hkeys
    exact absurd hkeys (by decide)

/-- The zone and the policy have notes beside the reasons for which they went. -/
theorem not_notesKeptOnly_notedEarlyText :
    ∃ db, MadeFrom twoYears [notedEarlyText] db ∧
      db.comments.removedZones.contains "Y" ∧
      db.comments.notableZones.contains "Y" ∧
      db.comments.removedPolicies.contains "Q" ∧
      db.comments.notablePolicies.contains "Q" ∧ ¬ db.NotesKeptOnly := by
  have hrun : (Source.empty.readTexts [] [notedEarlyText]).fault = none ∧
      ∃ db ∈ (Database.ofSource twoYears
      (Source.empty.readTexts [] [notedEarlyText]).source).result.toOption,
      db.comments.removedZones.contains "Y" ∧
        db.comments.notableZones.contains "Y" ∧
        db.comments.removedPolicies.contains "Q" ∧
        db.comments.notablePolicies.contains "Q" := by
    decide +kernel
  obtain ⟨hread, hrun⟩ := hrun
  obtain ⟨db, hdb, hzone, hzoneNoted, hpolicy, hpolicyNoted⟩ :=
    exists_eq_ok_of_toOption hrun
  exact ⟨db, ⟨hread, hdb⟩, hzone, hzoneNoted, hpolicy, hpolicyNoted,
    fun hkept => (hkept.zones "Y" hzoneNoted).2 hzone⟩

end ZoneTables
