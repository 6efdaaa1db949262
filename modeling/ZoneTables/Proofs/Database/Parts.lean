import ZoneTables.Proofs.Database.Faults
import ZoneTables.Proofs.Database.PolicyShape

/-!
# Parts of databases

Strict reviews and simple rules only take entries away.  Under options that are
laxer in this way every pass leaves what it left before: the records that could
be resolved still can, no zone or policy goes that stayed, and a policy that more
zones need keeps more of its rules.  So one database is a part of the other.
-/

namespace ZoneTables

variable {α β : Type}

/-! ## Parts -/

def NameMap.IsPart (m m' : NameMap α) : Prop :=
  ∀ name a, m.get? name = some a → m'.get? name = some a

theorem NameMap.IsPart.contains {m m' : NameMap α} (h : m.IsPart m')
    {name : String} (hname : m.contains name) : m'.contains name := by
  obtain ⟨a, ha⟩ := Option.isSome_iff_exists.1 hname
  exact NameMap.contains_of_get? (h name a ha)

/-- Whether rules are an anchor and some of the rules that another list has besides
the same anchor. -/
structure RulesPart (rules rules' : List Rule) : Prop where
  anchor : ∃ anchor, rules.filter (·.isAnchor) = [anchor] ∧
    rules'.filter (·.isAnchor) = [anchor]
  others : (rules.filter (!·.isAnchor)).Sublist (rules'.filter (!·.isAnchor))

def PoliciesPart (policies policies' : Policies) : Prop :=
  ∀ name rules, policies.get? name = some rules →
    ∃ rules', policies'.get? name = some rules' ∧ RulesPart rules rules'

theorem PoliciesPart.contains {policies policies' : Policies}
    (h : PoliciesPart policies policies') {name : String}
    (hname : policies.contains name) : policies'.contains name := by
  obtain ⟨rules, hrules⟩ := Option.isSome_iff_exists.1 hname
  obtain ⟨rules', hrules', _⟩ := h name rules hrules
  exact NameMap.contains_of_get? hrules'

/-- Whether all zones and links of a database are in another one, and its policies
with their anchors and these rules at least. -/
structure Database.IsPart (db db' : Database) : Prop where
  zones : db.zones.IsPart db'.zones
  policies : PoliciesPart db.policies db'.policies
  links : db.links.IsPart db'.links

/-! ## Reviews that are laxer -/

def Review.RelaxesTo (r r' : Review α) : Prop :=
  ∀ a, r.result = .ok a → r'.result = .ok a

namespace Review.RelaxesTo

theorem refl (r : Review α) : r.RelaxesTo r := fun _ h => h

theorem bind {r r' : Review α} {f f' : α → Review β} (h : r.RelaxesTo r')
    (hf : ∀ a, (f a).RelaxesTo (f' a)) : (r >>= f).RelaxesTo (r' >>= f') := by
  intro b hb
  obtain ⟨a, ha, hb⟩ := result_bind_eq_ok.1 hb
  exact result_bind_eq_ok.2 ⟨a, h a ha, hf a b hb⟩

theorem forAll {f f' : α → Review β} (h : ∀ a, (f a).RelaxesTo (f' a))
    (l : List α) : (Review.forAll f l).RelaxesTo (Review.forAll f' l) := by
  intro bs hbs
  rw [result_forAll_eq_ok] at hbs ⊢
  exact hbs.imp fun a b => h a b

end Review.RelaxesTo

/-- Whether other options ask for times of the same granularity, and for nothing
else that these do not ask for; rules do not have to be simple. -/
structure Options.RelaxesTo (o o' : Options) : Prop where
  window : o'.window = o.window
  included : o'.included = o.included
  stdOffset : o'.widths.stdOffset = o.widths.stdOffset
  time : o'.widths.time = o.widths.time
  save : o'.widths.save = o.widths.save
  strict : o'.strict → o.strict
  simpleRules : o'.widths.simpleRules = false

namespace Options.RelaxesTo

variable {o o' : Options} (h : o.RelaxesTo o')

include h

theorem fit (w : TimeWidth) (field : FittedField) (seconds : Int) :
    (w.fit o.strict field seconds).RelaxesTo (w.fit o'.strict field seconds) := by
  intro fitted hfit
  rw [TimeWidth.result_fit_eq_ok] at hfit ⊢
  exact ⟨hfit.1, fun hstrict => hfit.2 (h.strict hstrict)⟩

theorem resolveSaving (era : SourceEra) :
    (era.resolveSaving o.widths o.strict).RelaxesTo
      (era.resolveSaving o'.widths o'.strict) := by
  unfold SourceEra.resolveSaving
  rw [h.save]
  split
  · exact .refl _
  · split
    · split
      · exact .refl _
      · exact .bind (h.fit _ _ _) fun _ => .refl _
    · exact .refl _

theorem resolveUntil (u : Option SourceUntil) :
    (SourceEra.resolveUntil o.widths o.strict u).RelaxesTo
      (SourceEra.resolveUntil o'.widths o'.strict u) := by
  unfold SourceEra.resolveUntil
  rw [h.time]
  split
  · exact .refl _
  · split
    · exact .refl _
    · split
      · exact .refl _
      · exact .bind (h.fit _ _ _) fun _ => .refl _

theorem resolveEra (era : SourceEra) :
    (era.resolve o.widths o.strict).RelaxesTo
      (era.resolve o'.widths o'.strict) := by
  unfold SourceEra.resolve
  rw [h.stdOffset]
  refine .bind (h.fit _ _ _) fun _ => ?_
  refine .bind (h.resolveSaving era) fun _ => ?_
  refine .bind (.refl _) fun _ => ?_
  exact .bind (h.resolveUntil _) fun _ => .refl _

theorem resolveZone (eras : List SourceEra) :
    (ZoneTables.resolveZone o.widths o.strict eras).RelaxesTo
      (ZoneTables.resolveZone o'.widths o'.strict eras) :=
  .bind (.forAll h.resolveEra eras) fun _ => .refl _

theorem resolveRule (rule : SourceRule) :
    (rule.resolve o.widths o.strict).RelaxesTo
      (rule.resolve o'.widths o'.strict) := by
  unfold SourceRule.resolve
  rw [h.time, h.save]
  refine .bind (.refl _) fun _ => ?_
  refine .bind (h.fit _ _ _) fun _ => ?_
  exact .bind (h.fit _ _ _) fun _ => .refl _

theorem resolvePolicy (rules : List SourceRule) :
    (ZoneTables.resolvePolicy o.widths o.strict rules).RelaxesTo
      (ZoneTables.resolvePolicy o'.widths o'.strict rules) :=
  .forAll h.resolveRule rules

end Options.RelaxesTo

/-! ## Reviews that cut nothing -/

/-- Whether times are in seconds, so that none has to be cut. -/
structure Widths.IsExact (w : Widths) : Prop where
  stdOffset : w.stdOffset.granularity = 1
  time : w.time.granularity = 1
  save : w.save.granularity = 1

theorem TimeWidth.fit_eq_keep {w : TimeWidth} (h : w.granularity = 1)
    (strict : Bool) (field : FittedField) (seconds : Int) :
    w.fit strict field seconds = .keep seconds := by
  have hfitted : w.truncate seconds = seconds := by
    unfold truncate
    rw [h, Int.tdiv_one, Int.mul_one]
  unfold fit
  dsimp only
  rw [if_pos hfitted]

namespace Widths.IsExact

variable {w : Widths} (h : w.IsExact) (strict strict' : Bool)

include h

theorem resolveZone :
    ZoneTables.resolveZone w strict = ZoneTables.resolveZone w strict' := by
  have hera : SourceEra.resolve w strict = SourceEra.resolve w strict' := by
    funext era
    unfold SourceEra.resolve SourceEra.resolveSaving SourceEra.resolveUntil
    simp only [TimeWidth.fit_eq_keep h.stdOffset, TimeWidth.fit_eq_keep h.time,
      TimeWidth.fit_eq_keep h.save]
  funext eras
  unfold ZoneTables.resolveZone
  rw [hera]

theorem resolvePolicy :
    ZoneTables.resolvePolicy w strict = ZoneTables.resolvePolicy w strict' := by
  have hrule : SourceRule.resolve w strict = SourceRule.resolve w strict' := by
    funext rule
    unfold SourceRule.resolve
    simp only [TimeWidth.fit_eq_keep h.time, TimeWidth.fit_eq_keep h.save]
  funext rules
  unfold ZoneTables.resolvePolicy
  rw [hrule]

end Widths.IsExact

theorem Passes.of_strict {o : Options} (h : o.widths.IsExact)
    (strict strict' : Bool) (s : Source) :
    Passes.of { o with strict := strict } s =
      Passes.of { o with strict := strict' } s := by
  have hexact : o.scope.widths.IsExact := h
  unfold Passes.of Options.widths
  dsimp only
  rw [hexact.resolveZone strict strict', hexact.resolvePolicy strict strict']

/-! ## Steps of the passes -/

theorem NameMap.IsPart.contains_policyNames {zones zones' : Zones}
    (h : zones.IsPart zones') {name : String}
    (hname : (Zones.policyNames zones).contains name) :
    (Zones.policyNames zones').contains name := by
  rw [Zones.contains_policyNames] at hname ⊢
  obtain ⟨zone, eras, hzone, hera⟩ := hname
  exact ⟨zone, eras, h zone eras hzone, hera⟩

theorem NameMap.IsPart.reviewPolicies {zones zones' : Zones}
    {policies policies' : Policies} (h : zones.IsPart zones')
    (hpolicies : ∀ name, policies.contains name → policies'.contains name) :
    (Zones.reviewPolicies policies zones).kept.IsPart
      (Zones.reviewPolicies policies' zones').kept := by
  intro name eras heras
  rw [Zones.get?_kept_reviewPolicies] at heras ⊢
  exact ⟨h name eras heras.1, fun era hera policy hsaving =>
    hpolicies policy (heras.2 era hera policy hsaving)⟩

theorem NameMap.IsPart.reviewTargets {zones zones' : Zones}
    {links links' : Links} (hlinks : links.IsPart links')
    (hzones : zones.IsPart zones') :
    (Links.reviewTargets zones links).kept.IsPart
      (Links.reviewTargets zones' links').kept := by
  intro name target htarget
  rw [Links.get?_kept_reviewTargets] at htarget ⊢
  exact ⟨hlinks name target htarget.1, hzones.contains htarget.2⟩

theorem policyYears_subset {zones zones' : Zones} (h : zones.IsPart zones')
    (window : Window) (name : String) :
    policyYears window zones name ⊆ policyYears window zones' name := by
  intro y hy
  rw [mem_policyYears_iff] at hy ⊢
  obtain ⟨zone, eras, hzone, hmem⟩ := hy
  exact ⟨zone, eras, h zone eras hzone, hmem⟩

theorem RuleSelection.selected_rulesPart {window : Window}
    {years years' : List EraYears} {rules : List Rule}
    (hrules : ∀ r ∈ rules, r.isAnchor = false)
    (hne : (RuleSelection.of years rules).kept ≠ [])
    (hyears : years ⊆ years') :
    (RuleSelection.of years' rules).kept ≠ [] ∧
      RulesPart ((RuleSelection.of years rules).selected window)
        ((RuleSelection.of years' rules).selected window) := by
  have hmono : ∀ r ∈ (RuleSelection.of years rules).kept,
      r ∈ (RuleSelection.of years' rules).kept := by
    intro r hr
    rw [mem_kept] at hr ⊢
    obtain ⟨hmem, y, hy, hneeds⟩ := hr
    exact ⟨hmem, y, hyears hy, hneeds⟩
  obtain ⟨r, hr⟩ := List.exists_mem_of_ne_nil _ hne
  have hne' := List.ne_nil_of_mem (hmono r hr)
  exact ⟨hne', ⟨_, (anchored_selected hrules hne).unique,
    (anchored_selected hrules hne').unique⟩,
    selected_sublist_of_kept hrules hmono⟩

/-! ## The passes -/

theorem Passes.get?_simpleZones {o : Options} {s : Source} {zone : String}
    {eras : List Era} (hsimple : o.widths.simpleRules = false)
    (h : (Passes.of o s).resolvedZones.kept.get? zone = some eras) :
    (Passes.of o s).simpleZones.kept.get? zone = some eras := by
  refine NameMap.get?_kept_review.2 ⟨eras, h, ?_⟩
  rw [hsimple]
  rfl

namespace Options.RelaxesTo

variable {o o' : Options} (h : o.RelaxesTo o') (s : Source)

include h

theorem simpleZones : (Passes.of o s).simpleZones.kept.IsPart
    (Passes.of o' s).simpleZones.kept := by
  intro zone eras heras
  obtain ⟨sources, hsources, hresolve⟩ :=
    Passes.get?_resolvedZones.1 (Passes.of_simpleZones heras)
  refine Passes.get?_simpleZones h.simpleRules ?_
  refine Passes.get?_resolvedZones.2 ⟨sources, ?_, h.resolveZone _ _ hresolve⟩
  rw [Passes.get?_inWindow, h.window]
  exact Passes.get?_inWindow.1 hsources

theorem resolvedPolicies : (Passes.of o s).resolvedPolicies.kept.IsPart
    (Passes.of o' s).resolvedPolicies.kept := by
  intro name rules hrules
  obtain ⟨sources, hsources, hused, hresolve⟩ :=
    Passes.get?_resolvedPolicies.1 hrules
  exact Passes.get?_resolvedPolicies.2 ⟨sources, hsources,
    (h.simpleZones s).contains_policyNames hused, h.resolvePolicy _ _ hresolve⟩

theorem usableZones : (Passes.of o s).usableZones.kept.IsPart
    (Passes.of o' s).usableZones.kept :=
  (h.simpleZones s).reviewPolicies fun _ => (h.resolvedPolicies s).contains

theorem simplePolicies : PoliciesPart (Passes.of o s).simplePolicies.kept
    (Passes.of o' s).simplePolicies.kept := by
  intro name rules hrules
  obtain ⟨resolved, hresolved, hkept, rfl⟩ :=
    Passes.get?_selectedPolicies.1 (Passes.of_simplePolicies hrules)
  obtain ⟨sources, _, _, hresolve⟩ := Passes.get?_resolvedPolicies.1 hresolved
  -- more zones are usable, so that the policy is needed in more years
  have hyears := policyYears_subset (h.usableZones s) o.window name
  obtain ⟨hkept', hpart⟩ := RuleSelection.selected_rulesPart
    (not_isAnchor_of_resolvePolicy hresolve) hkept hyears
  refine ⟨_, ?_, hpart⟩
  refine Passes.get?_simplePolicies h.simpleRules ?_
  rw [Passes.get?_selectedPolicies, h.window]
  exact ⟨resolved, h.resolvedPolicies s name resolved hresolved, hkept', rfl⟩

theorem zones : (Passes.of o s).zones.kept.IsPart
    (Passes.of o' s).zones.kept :=
  (h.usableZones s).reviewPolicies fun _ => (h.simplePolicies s).contains

theorem links : (Passes.of o s).links.kept.IsPart
    (Passes.of o' s).links.kept := by
  have hsame : s.links.IsPart s.links := fun _ _ h => h
  exact (hsame.reviewTargets (h.usableZones s)).reviewTargets (h.zones s)

theorem policies : PoliciesPart (Passes.of o s).policies.kept
    (Passes.of o' s).policies.kept := by
  intro name rules hrules
  obtain ⟨hsimple, hused⟩ := Passes.get?_policies.1 hrules
  obtain ⟨rules', hsimple', hpart⟩ := h.simplePolicies s name rules hsimple
  exact ⟨rules', Passes.get?_policies.2 ⟨hsimple',
    (h.zones s).contains_policyNames hused⟩, hpart⟩

end Options.RelaxesTo

/-! ## Made databases -/

namespace Source

variable {o o' : Options} {s : Source}

theorem restrict_congr (h : o'.included = o.included) :
    s.restrict o' = s.restrict o := by
  unfold restrict Options.includes
  rw [h]

theorem firstFault?_congr (hwindow : o'.window = o.window)
    (hincluded : o'.included = o.included) :
    s.firstFault? o' = s.firstFault? o := by
  unfold firstFault? referenceFault?
  rw [hwindow, restrict_congr hincluded]

end Source

namespace Database

theorem ofSource_isPart {o o' : Options} (h : o.RelaxesTo o') (s : Source) :
    (∃ fault, (ofSource o s).result = .error fault ∧
      (ofSource o' s).result = .error fault) ∨
    (ofSource o s).result = .ok
        (make o (s.restrict o).source (s.restrict o).findings).database ∧
      (ofSource o' s).result = .ok
        (make o' (s.restrict o).source (s.restrict o).findings).database ∧
      (make o (s.restrict o).source (s.restrict o).findings).database.IsPart
        (make o' (s.restrict o).source (s.restrict o).findings).database := by
  rw [result_ofSource, result_ofSource,
    Source.firstFault?_congr h.window h.included,
    Source.restrict_congr h.included]
  cases s.firstFault? o with
  | some fault => exact .inl ⟨fault, rfl, rfl⟩
  | none => exact .inr ⟨rfl, rfl, h.zones _, h.policies _, h.links _⟩

theorem make_strict {o : Options} (h : o.widths.IsExact) (source : Source)
    (found : List Finding) :
    { (make { o with strict := true } source found).database with
      strict := false } =
      (make { o with strict := false } source found).database := by
  unfold make
  rw [Passes.of_strict h true false]
  rfl

/-- A strict database is a part of the one that is made otherwise, if rules do not
have to be simple, and either both are made or none is, because of the same
fault.  Where times are in seconds they are the same. -/
theorem strict_isPart (o : Options) (hscope : o.scope ≠ .basic) (s : Source) :
    (∃ fault,
      (ofSource { o with strict := true } s).result = .error fault ∧
      (ofSource { o with strict := false } s).result = .error fault) ∨
    ∃ db db',
      (ofSource { o with strict := true } s).result = .ok db ∧
      (ofSource { o with strict := false } s).result = .ok db' ∧
      db.IsPart db' ∧
      (o.scope = .complete → { db with strict := false } = db') := by
  have hrelaxes : Options.RelaxesTo { o with strict := true }
      { o with strict := false } :=
    ⟨rfl, rfl, rfl, rfl, rfl, nofun, Options.simpleRules_eq_false hscope⟩
  rcases ofSource_isPart hrelaxes s with hfault | ⟨hdb, hdb', hpart⟩
  · exact .inl hfault
  · refine .inr ⟨_, _, hdb, hdb', hpart, fun hcomplete => ?_⟩
    have hexact : o.widths.IsExact := by
      unfold Options.widths
      rw [hcomplete]
      exact ⟨rfl, rfl, rfl⟩
    exact make_strict hexact _ _

end Database

def lateZoneText : SourceText where
  name := "t"
  text := "R P 1990 o - Apr 1 0 1 D\n" ++
    "R P 2000 o - Oct 1 0 0 S\n" ++
    "Z Z 0 - A 2001\n" ++
    " 0 P E%s\n" ++
    "L Z A\n"

def misfitText : SourceText where
  name := "t"
  text := lateZoneText.text ++
    "Z Y 0:00:30 P F%s\n" ++
    "L Y B\n"

/-- In minutes a strict review takes the zone, the link to it and the rule that
nothing else needs; in seconds it takes nothing. -/
theorem strict_isPart_misfitText :
    (∃ db db', (Database.ofSource { twoYears with strict := true }
        (Source.empty.readTexts [] [misfitText]).source).result = .ok db ∧
      (Database.ofSource { twoYears with strict := false }
        (Source.empty.readTexts [] [misfitText]).source).result = .ok db' ∧
      db.IsPart db' ∧
      (db.zones.keys = ["Z"] ∧ db.links.keys = ["A"] ∧
        (db.policies.get? "P").map (·.length) = some 2) ∧
      db'.zones.keys = ["Y", "Z"] ∧ db'.links.keys = ["A", "B"] ∧
        (db'.policies.get? "P").map (·.length) = some 3) ∧
    ∃ db, (Database.ofSource { twoYears with scope := .complete, strict := true }
        (Source.empty.readTexts [] [misfitText]).source).result = .ok db ∧
      (Database.ofSource { twoYears with scope := .complete, strict := false }
        (Source.empty.readTexts [] [misfitText]).source).result =
          .ok { db with strict := false } ∧
      db.zones.keys = ["Y", "Z"] := by
  have hrun : ∃ db ∈ (Database.ofSource { twoYears with strict := true }
        (Source.empty.readTexts [] [misfitText]).source).result.toOption,
      db.zones.keys = ["Z"] ∧ db.links.keys = ["A"] ∧
        (db.policies.get? "P").map (·.length) = some 2 := by
    decide +kernel
  have hrun' : ∃ db ∈ (Database.ofSource { twoYears with strict := false }
        (Source.empty.readTexts [] [misfitText]).source).result.toOption,
      db.zones.keys = ["Y", "Z"] ∧ db.links.keys = ["A", "B"] ∧
        (db.policies.get? "P").map (·.length) = some 3 := by
    decide +kernel
  have hseconds : ∃ db ∈ (Database.ofSource
        { twoYears with scope := .complete, strict := true }
        (Source.empty.readTexts [] [misfitText]).source).result.toOption,
      db.zones.keys = ["Y", "Z"] := by
    decide +kernel
  constructor
  · obtain ⟨db, hdb, hkept⟩ := exists_eq_ok_of_toOption hrun
    obtain ⟨db', hdb', hkept'⟩ := exists_eq_ok_of_toOption hrun'
    rcases Database.strict_isPart twoYears (by decide)
      (Source.empty.readTexts [] [misfitText]).source with
        ⟨_, hfault, _⟩ | ⟨_, _, hok, hok', hpart, _⟩
    · exact nomatch hfault.symm.trans hdb
    · cases hok.symm.trans hdb
      cases hok'.symm.trans hdb'
      exact ⟨db, db', hdb, hdb', hpart, hkept, hkept'⟩
  · obtain ⟨db, hdb, hkept⟩ := exists_eq_ok_of_toOption hseconds
    rcases Database.strict_isPart { twoYears with scope := .complete } (by decide)
      (Source.empty.readTexts [] [misfitText]).source with
        ⟨_, hfault, _⟩ | ⟨_, _, hok, hok', _, hsame⟩
    · exact nomatch hfault.symm.trans hdb
    · cases hok.symm.trans hdb
      refine ⟨db, hdb, ?_, hkept⟩
      rw [hsame rfl]
      exact hok'

namespace Database

/-- A basic database is a part of the extended one, and either both are made or
none is, because of the same fault. -/
theorem basic_isPart (o : Options) (s : Source) :
    (∃ fault,
      (ofSource { o with scope := .basic } s).result = .error fault ∧
      (ofSource { o with scope := .extended } s).result = .error fault) ∨
    ∃ db db',
      (ofSource { o with scope := .basic } s).result = .ok db ∧
      (ofSource { o with scope := .extended } s).result = .ok db' ∧
      db.IsPart db' := by
  have hrelaxes : Options.RelaxesTo { o with scope := .basic }
      { o with scope := .extended } :=
    ⟨rfl, rfl, rfl, rfl, rfl, id, rfl⟩
  rcases ofSource_isPart hrelaxes s with hfault | ⟨hdb, hdb', hpart⟩
  · exact .inl hfault
  · exact .inr ⟨_, _, hdb, hdb', hpart⟩

end Database

/-- A zone besides that needs the policy before, and one end of which is not in
wall time. -/
def standardEndText : SourceText where
  name := "t"
  text := lateZoneText.text ++
    "Z Y 0 P F%s 2001 Mar 1 0s\n" ++
    " 0 - G\n" ++
    "L Y B\n"

-- the basic database has neither that zone nor the rule that only it needs
example :
    (∃ db ∈ (Database.ofSource { twoYears with scope := .basic }
        (Source.empty.readTexts [] [standardEndText]).source).result.toOption,
      db.zones.keys = ["Z"] ∧ db.links.keys = ["A"] ∧
        (db.policies.get? "P").map (·.length) = some 2) ∧
    ∃ db ∈ (Database.ofSource { twoYears with scope := .extended }
        (Source.empty.readTexts [] [standardEndText]).source).result.toOption,
      db.zones.keys = ["Y", "Z"] ∧ db.links.keys = ["A", "B"] ∧
        (db.policies.get? "P").map (·.length) = some 3 := by
  decide +kernel

end ZoneTables
