import ZoneTables.Proofs.Buffer.KeptEras

/-!
# Years outside the window

A database of which nothing was cut off on one side of its window says of
itself that it is as right as its source for all years on that side.  It keeps
the rules that matter there, but not what stands for the time before them: the
anchor carries the saving at the start of the window back to all earlier years,
also to those before the first rule.
-/

namespace ZoneTables

/-! ## Whole eras -/

/-- Eras with all their years: the first of them starts in the least year, and
the last one does not end. -/
def wholeYears (eras : List Era) : List (Era × EraYears) :=
  eraYears Year.never Year.least eras

section Years

variable {eras : List Era} {era : Era} {y : EraYears} {start : Int}

theorem mem_eraYears_of_stop {stop stop' : Int}
    (h : (era, y) ∈ eraYears stop start eras) :
    (era, ⟨y.first, min era.ends.year stop'⟩) ∈ eraYears stop' start eras := by
  induction eras generalizing start with
  | nil => exact absurd h List.not_mem_nil
  | cons first rest ih =>
    rcases List.mem_cons.1 h with heq | hrest
    · cases heq
      exact List.mem_cons_self
    · exact List.mem_cons_of_mem _ (ih hrest)

theorem mem_eraYears_of_mem_wholeYears (stop : Int)
    (horder : eras.Pairwise fun a b => a.ends.year ≤ b.ends.year)
    (hstart : Year.least ≤ start) (hlate : ∀ era ∈ eras, start ≤ era.ends.year)
    (h : (era, y) ∈ wholeYears eras) :
    (era, ⟨max y.first start, min era.ends.year stop⟩) ∈
      eraYears stop start eras := by
  unfold wholeYears at h
  cases eras with
  | nil => exact absurd h List.not_mem_nil
  | cons first rest =>
    rw [List.forall_mem_cons] at hlate
    rcases List.mem_cons.1 h with heq | hrest
    · cases heq
      dsimp only
      rw [max_eq_right hstart]
      exact List.mem_cons_self
    · have hfirst := le_first_of_mem_eraYears horder.of_cons
        (fun e he => List.rel_of_pairwise_cons horder he) hrest
      rw [max_eq_left (Int.le_trans hlate.1 hfirst)]
      exact List.mem_cons_of_mem _ (mem_eraYears_of_stop hrest)

theorem last_of_mem_eraYears {stop : Int}
    (h : (era, y) ∈ eraYears stop start eras) :
    y.last = min era.ends.year stop := by
  induction eras generalizing start with
  | nil => exact absurd h List.not_mem_nil
  | cons first rest ih =>
    rcases List.mem_cons.1 h with heq | hrest
    · cases heq
      rfl
    · exact ih hrest

end Years

/-! ## Nothing cut off -/

namespace RuleSelection

variable {window : Window} {years : List EraYears} {rules : List Rule} {r : Rule}

theorem exists_mem_dropped (hr : r ∈ rules)
    (hnot : r ∉ (RuleSelection.of years rules).kept) :
    ∃ i, (i, r) ∈ (RuleSelection.of years rules).dropped := by
  have hpos : ∃ i, (r, i) ∈ rules.zipIdx := by
    rw [← List.zipIdx_map_fst 0 rules, List.mem_map] at hr
    obtain ⟨⟨r', i⟩, hmem, rfl⟩ := hr
    exact ⟨i, hmem⟩
  obtain ⟨i, hi⟩ := hpos
  have hneeded : ¬ (years.map (RuleNeed.of rules)).any fun need =>
      need.needs r :=
    fun hneeded => hnot (List.mem_filter.2 ⟨hr, hneeded⟩)
  refine ⟨i, List.mem_map.2 ⟨(r, i), List.mem_filter.2 ⟨hi, ?_⟩, rfl⟩⟩
  rwa [Bool.not_eq_true', ← Bool.not_eq_true]

theorem start_le_toYear_of_dropped
    (hcut : (RuleSelection.of years rules).cutsBefore window = false)
    (hkept : (RuleSelection.of years rules).kept ≠ []) (hr : r ∈ rules)
    (hnot : r ∉ (RuleSelection.of years rules).kept) :
    window.start ≤ r.toYear := by
  obtain ⟨i, hi⟩ := exists_mem_dropped hr hnot
  unfold cutsBefore at hcut
  rw [List.isEmpty_eq_false_iff.2 hkept, Bool.not_false, Bool.true_and,
    List.any_eq_false] at hcut
  have hlate := hcut _ hi
  rw [decide_eq_true_eq] at hlate
  exact Int.not_lt.1 hlate

theorem fromYear_lt_stop_of_dropped
    (hcut : (RuleSelection.of years rules).cutsAfter window = false)
    (hkept : (RuleSelection.of years rules).kept ≠ []) (hr : r ∈ rules)
    (hnot : r ∉ (RuleSelection.of years rules).kept) :
    r.toYear < window.start ∨ r.fromYear < window.stop := by
  obtain ⟨i, hi⟩ := exists_mem_dropped hr hnot
  unfold cutsAfter at hcut
  rw [List.isEmpty_eq_false_iff.2 hkept, Bool.not_false, Bool.true_and,
    List.any_eq_false] at hcut
  have hearly := hcut _ hi
  rw [Bool.and_eq_true, decide_eq_true_eq, decide_eq_true_eq] at hearly
  dsimp only at hearly
  omega

section Uncut

variable {y : EraYears}
  (hkept : (RuleSelection.of years rules).kept ≠ []) (hr : r ∈ rules)

include hkept hr

/-- If nothing was cut off before the window, a policy has all rules that start
before the window and an era with the year before it. -/
theorem mem_selected_of_cutsBefore
    (hcut : (RuleSelection.of years rules).cutsBefore window = false)
    (hy : y ∈ years) (hfirst : y.first ≤ window.start - 1)
    (hlast : window.start - 1 ≤ y.last) (hfrom : r.fromYear < window.start) :
    r ∈ (RuleSelection.of years rules).selected window := by
  by_contra hnot
  have hdropped : r ∉ (RuleSelection.of years rules).kept :=
    fun h => hnot (mem_selected.2 (.inr h))
  have hto := start_le_toYear_of_dropped hcut hkept hr hdropped
  have hcovers : r.covers (window.start - 1) :=
    Rule.covers_iff.2 ⟨by omega, by omega⟩
  exact hnot (mem_selected_of_covers hy hr hcovers hfirst hlast)

/-- If nothing was cut off after the window, only rules are dropped that start
before its end. -/
theorem fromYear_le_stop_of_cutsAfter
    (hcut : (RuleSelection.of years rules).cutsAfter window = false)
    (hwindow : window.start < window.stop) (hyears : r.fromYear ≤ r.toYear)
    (hnot : r ∉ (RuleSelection.of years rules).selected window) :
    r.fromYear ≤ window.stop := by
  have hdropped : r ∉ (RuleSelection.of years rules).kept :=
    fun h => hnot (mem_selected.2 (.inr h))
  rcases fromYear_lt_stop_of_dropped hcut hkept hr hdropped with hto | hfrom
  · omega
  · omega

end Uncut

end RuleSelection

/-! ## Wrong savings -/

/-- Whether the saving that is found just before a local time is not the one
among all rules of a policy, with standard time before the first of them. -/
inductive Misled (rules selected : List Rule) (first : Int)
    (bound : LocalTime) : Prop where
  /-- Not even the anchor takes effect before it. -/
  | unanswered : latestRule? selected bound = none →
    Misled rules selected first bound
  /-- The anchor carries back a saving that is not in force yet. -/
  | anchored {found : Rule} : latestRule? selected bound = some found →
    found.isAnchor = true → found.save ≠ (savingAt? rules bound).getD 0 →
    Misled rules selected first bound
  /-- The rule in force is displaced by one that saves another amount. -/
  | displaced {found other : Rule} :
    Displaced rules selected first bound found other →
    found.save ≠ other.save → Misled rules selected first bound

namespace RuleSelection

variable {window : Window} {years : List EraYears} {y : EraYears}
  {rules : List Rule} {bound : LocalTime} {found other : Rule}
  (hrules : ∀ r ∈ rules, r.isAnchor = false) (hy : y ∈ years)
  (hearly : ∀ r ∈ rules,
    r ∉ (RuleSelection.of years rules).selected window →
    r.fromYear ≤ bound.date.year → r.fromYear ≤ y.last)

theorem mem_rules_of_mem_selected {r : Rule}
    (hr : r ∈ (RuleSelection.of years rules).selected window)
    (hnot : r.isAnchor = false) : r ∈ rules := by
  rcases mem_selected.1 hr with rfl | hkept
  · rw [isAnchor_anchorRule] at hnot
    cases hnot
  · exact (mem_kept.1 hkept).1

theorem latestRule?_full_of_selected
    (hfound : latestRule? rules bound = some found)
    (hselected : latestRule? ((RuleSelection.of years rules).selected window)
      bound = some other) (hnot : other.isAnchor = false) :
    latestRule? (full window rules) bound = some found := by
  obtain ⟨hmem, t, ht, hgreatest⟩ := latestRule?_greatest hselected
  have hother := mem_rules_of_mem_selected hmem hnot
  obtain ⟨front, back, time, hsplit, htime, hfront, hback⟩ :=
    latestRule?_eq_some hfound
  have hlate : ¬ time < t :=
    (latestRule?_greatest hfound).2.elim fun time' h => by
      rw [htime] at h
      cases h.1
      exact h.2 other hother t ht
  have hfull : full window rules =
      (anchorRule rules (window.start - 1) :: front) ++ found :: back := by
    rw [List.cons_append, ← hsplit]
    rfl
  rw [hfull]
  apply latestRule?_of_split htime _ hback
  rw [List.forall_mem_cons]
  refine ⟨fun first hfirst hlt => ?_, hfront⟩
  have hanchor := hgreatest _ (mem_selected.2 (.inl rfl)) first hfirst
  rcases LocalTime.isRanking.split (b := t) (decide_eq_true hlt) with h | h
  · exact hlate (of_decide_eq_true h)
  · exact hanchor (of_decide_eq_true h)

include hrules hy hearly

theorem eq_or_displaced (hfound : latestRule? rules bound = some found)
    (hselected : latestRule? ((RuleSelection.of years rules).selected window)
      bound = some other) (hnot : other.isAnchor = false) :
    other = found ∨ Displaced rules
      ((RuleSelection.of years rules).selected window) y.first bound found
        other := by
  by_cases hkept : found ∈ (RuleSelection.of years rules).selected window
  · have hfull := latestRule?_full_of_selected hfound hselected hnot
    exact (eq_or_reordered_of_kept hrules hfull hselected hkept).imp_right
      fun hre => ⟨hfound, hselected, .inr hre⟩
  · obtain ⟨hmem, time, htime, _⟩ := latestRule?_greatest hfound
    have hfrom : found.fromYear ≤ bound.date.year := by
      obtain ⟨year, hfrom, hle, _, _⟩ := Rule.lastBeforeTime?_eq_some htime
      omega
    exact .inr ⟨hfound, hselected, .inl (overlooked_of_dropped (fun _ => id) hy
      hmem (hearly found hmem hkept hfrom) hfound hkept)⟩

/-- The saving is found among the kept rules, with standard time before the
first rule, in all cases but three. -/
theorem savingAt?_selected_eq_some_iff :
    savingAt? ((RuleSelection.of years rules).selected window) bound =
        some ((savingAt? rules bound).getD 0) ↔
      ¬ Misled rules ((RuleSelection.of years rules).selected window) y.first
        bound := by
  constructor
  · intro heq hmisled
    unfold savingAt? at heq
    cases hmisled with
    | unanswered hnone => simp [hnone] at heq
    | anchored hfound _ hne =>
      rw [hfound, Option.map_some, Option.some.injEq] at heq
      exact hne heq
    | displaced h hne =>
      rw [h.inSelected, h.inAll, Option.map_some, Option.map_some,
        Option.getD_some, Option.some.injEq] at heq
      exact hne heq.symm
  · intro hright
    cases hselected : latestRule?
        ((RuleSelection.of years rules).selected window) bound with
    | none => exact absurd (.unanswered hselected) hright
    | some other =>
      have hsaving : savingAt? ((RuleSelection.of years rules).selected window)
          bound = some other.save := by
        rw [savingAt?, hselected, Option.map_some]
      rw [hsaving, Option.some.injEq]
      by_contra hne
      apply hright
      by_cases hanchor : other.isAnchor
      · exact .anchored hselected hanchor hne
      · rw [Bool.not_eq_true] at hanchor
        have hother := mem_rules_of_mem_selected
          (latestRule?_greatest hselected).1 hanchor
        cases hfound : latestRule? rules bound with
        | none =>
          obtain ⟨_, time, htime, _⟩ := latestRule?_greatest hselected
          rw [latestRule?_eq_none.1 hfound other hother] at htime
          cases htime
        | some found =>
          rw [savingAt?, hfound, Option.map_some, Option.getD_some] at hne
          rcases eq_or_displaced hrules hy hearly hfound hselected hanchor with
            rfl | h
          · exact absurd rfl hne
          · exact .displaced h fun heq => hne heq.symm

end RuleSelection

/-! ## Made databases -/

theorem Database.cuts_of_ofSource {o : Options} {s : Source} {db : Database}
    (h : (Database.ofSource o s).result = .ok db) :
    db.cutBefore =
        (Passes.of o (s.restrict o).source).cutsBefore o.window ∧
      db.cutAfter = (Passes.of o (s.restrict o).source).cutsAfter o.window := by
  obtain ⟨_, _, _, rfl⟩ := ofSource_eq_ok.1 h
  exact ⟨rfl, rfl⟩

theorem Database.cutBefore_eq_false {db : Database}
    (h : Year.least < db.window.start) (hyear : db.accurateFrom = Year.least) :
    db.cutBefore = false := by
  unfold accurateFrom at hyear
  cases hcut : db.cutBefore with
  | false => rfl
  | true =>
    rw [hcut, if_pos rfl] at hyear
    omega

theorem Database.cutAfter_eq_false {db : Database}
    (h : db.window.stop ≤ Year.endless)
    (hyear : db.accurateUntil = Year.never) : db.cutAfter = false := by
  unfold accurateUntil at hyear
  cases hcut : db.cutAfter with
  | false => rfl
  | true =>
    rw [hcut, if_pos rfl, Year.never] at hyear
    rw [hyear, Year.endless] at h
    omega

section Made

variable {o : Options} {s : Source} {db : Database} {name : String}
  {resolved : List Rule}

/-- If the passes cut nothing off, no selection of rules does. -/
theorem Passes.cuts_eq_false
    (h : (Passes.of o s).resolvedPolicies.kept.get? name = some resolved) :
    ((Passes.of o s).cutsBefore o.window = false →
        (RuleSelection.of (policyYears o.window
          (Passes.of o s).usableZones.kept name) resolved).cutsBefore
            o.window = false) ∧
      ((Passes.of o s).cutsAfter o.window = false →
        (RuleSelection.of (policyYears o.window
          (Passes.of o s).usableZones.kept name) resolved).cutsAfter
            o.window = false) := by
  have hget : (Passes.of o s).selections.get? name = some (RuleSelection.of
      (policyYears o.window (Passes.of o s).usableZones.kept name)
        resolved) := by
    show ((Passes.of o s).resolvedPolicies.kept.map _).get? name = _
    rw [NameMap.get?_map, h]
    rfl
  have hmem := List.mem_map_of_mem (NameMap.get?_eq_some_iff.1 hget)
    (f := Prod.snd)
  constructor
  · intro hcut
    have hrules := (Bool.or_eq_false_iff.1 hcut).2
    exact Bool.eq_false_iff.2 (List.any_eq_false.1 hrules _ hmem)
  · intro hcut
    have hrules := (Bool.or_eq_false_iff.1 hcut).2
    exact Bool.eq_false_iff.2 (List.any_eq_false.1 hrules _ hmem)

theorem MadeOf.exists_selection (h : MadeOf o s db) {selected : List Rule}
    (hselected : db.policies.get? name = some selected) :
    ∃ resolved, s.ResolvesPolicy o name resolved ∧
      (Passes.of o s).resolvedPolicies.kept.get? name = some resolved ∧
      (RuleSelection.of (policyYears o.window
        (Passes.of o s).usableZones.kept name) resolved).kept ≠ [] ∧
      selected = (RuleSelection.of (policyYears o.window
        (Passes.of o s).usableZones.kept name) resolved).selected o.window := by
  rw [h.policies] at hselected
  obtain ⟨sources, resolved, hsources, hresolve, hrest⟩ :=
    Passes.exists_policy hselected
  exact ⟨resolved, ⟨sources, hsources, hresolve⟩, hrest⟩

end Made

/-- Where nothing was cut off on one side of the window, the rules of a made
database give the saving in force before a time of an era on that side as all
rules of the source do, unless they mislead; and before the window no rule that
has started by then is missing. -/
theorem MadeFrom.savingAt?_accurate_iff {o : Options} {texts : List SourceText}
    {db : Database} (h : MadeFrom o texts db) {zone : String}
    {eras : List Era} (hzone : db.zones.get? zone = some eras) {era : Era}
    {y : EraYears} (hera : (era, y) ∈ wholeYears eras) {policy : String}
    (hsaving : era.saving = .policy policy) :
    ∃ sources rules selected,
      (Source.empty.readTexts [] texts).source.policies.get? policy =
        some sources ∧
      (resolvePolicy db.widths db.strict sources).result = .ok rules ∧
      db.policies.get? policy = some selected ∧
      ∀ bound : LocalTime, y.first ≤ bound.date.year →
        bound.date.year ≤ y.last →
        (db.accurateFrom = Year.least ∧
            bound.date.year < db.window.start - 1) ∨
          (db.accurateUntil = Year.never ∧
            db.window.stop < bound.date.year) →
        (bound.date.year < db.window.start - 1 →
          ∀ r ∈ rules, r.fromYear ≤ bound.date.year → r ∈ selected) ∧
        (savingAt? selected bound = some ((savingAt? rules bound).getD 0) ↔
          ¬ Misled rules selected (max y.first (db.window.start - 1))
            bound) := by
  have hmade := h.madeOf
  obtain ⟨hbefore, hafter⟩ := Database.cuts_of_ofSource h.made
  generalize hs : ((Source.empty.readTexts [] texts).source.restrict o).source =
    s at hmade hbefore hafter
  have hpolicies : s.policies =
      (Source.empty.readTexts [] texts).source.policies := by
    rw [← hs]
    rfl
  have hmem := fst_mem_of_mem_eraYears hera
  have hlt := hmade.start_lt
  have hleast := hmade.least_lt
  -- the years of need of the era, and the selection that they count for
  have hlate := hmade.le_year_of_mem hzone
  have hneed := mem_eraYears_of_mem_wholeYears o.window.stop
    ((hmade.pairwise_key hzone).imp fun hkey => Until.year_le_of_key_lt hkey)
    (by omega : Year.least ≤ o.window.start - 1) hlate hera
  have hy := hmade.mem_policyYears hzone hneed hsaving
  obtain ⟨selected, hselected⟩ := hmade.contains_policy hzone hmem hsaving
  obtain ⟨rules, hresolves, hresolved, hkept, rfl⟩ :=
    hmade.exists_selection hselected
  have hrules := hresolves.not_isAnchor
  obtain ⟨hcutBefore, hcutAfter⟩ := Passes.cuts_eq_false hresolved
  obtain ⟨sources, hsources, hresolve⟩ := hresolves
  have hproper := hmade.resolved_isProper hsources hresolve
  refine ⟨sources, rules, _, hpolicies ▸ hsources, ?_, hselected, ?_⟩
  · rw [hmade.widths, hmade.strict]
    exact hresolve
  · intro bound hfirst hlast hside
    have hends := hlate era hmem
    rw [last_of_mem_eraYears hera] at hlast
    rcases hside with ⟨haccurate, hyear⟩ | ⟨haccurate, hyear⟩
    · have hcut := Database.cutBefore_eq_false hmade.window_usable.2.1 haccurate
      rw [hbefore] at hcut
      rw [hmade.window] at hyear ⊢
      have hall : ∀ r ∈ rules, r.fromYear ≤ bound.date.year →
          r ∈ (RuleSelection.of _ rules).selected o.window :=
        fun r hr hfrom => RuleSelection.mem_selected_of_cutsBefore hkept hr
          (hcutBefore hcut) hy (by dsimp only; omega) (by dsimp only; omega)
          (by omega)
      exact ⟨fun _ => hall, RuleSelection.savingAt?_selected_eq_some_iff hrules
        hy fun r hr hnot hfrom => absurd (hall r hr hfrom) hnot⟩
    · have hcut := Database.cutAfter_eq_false hmade.window_usable.2.2 haccurate
      rw [hafter] at hcut
      rw [hmade.window] at hyear ⊢
      refine ⟨fun hlt => by omega, RuleSelection.savingAt?_selected_eq_some_iff
        hrules hy fun r hr hnot _ => ?_⟩
      have hfrom := RuleSelection.fromYear_le_stop_of_cutsAfter hkept hr
        (hcutAfter hcut) hlt (hproper r hr).years hnot
      dsimp only
      omega

theorem savingAt?_accurate_iff_oneRuleText :
    ∃ db eras era y, MadeFrom twoYears [oneRuleText] db ∧
      db.zones.get? "Z" = some eras ∧ (era, y) ∈ wholeYears eras ∧
      era.saving = .policy "P" ∧
      db.accurateFrom = Year.least ∧ db.accurateUntil = Year.never ∧
      ∃ sources rules selected,
        (Source.empty.readTexts [] [oneRuleText]).source.policies.get? "P" =
          some sources ∧
        (resolvePolicy db.widths db.strict sources).result = .ok rules ∧
        db.policies.get? "P" = some selected ∧
        ∀ bound : LocalTime, y.first ≤ bound.date.year →
          bound.date.year ≤ y.last →
          (db.accurateFrom = Year.least ∧
              bound.date.year < db.window.start - 1) ∨
            (db.accurateUntil = Year.never ∧
              db.window.stop < bound.date.year) →
          (bound.date.year < db.window.start - 1 →
            ∀ r ∈ rules, r.fromYear ≤ bound.date.year → r ∈ selected) ∧
          (savingAt? selected bound = some ((savingAt? rules bound).getD 0) ↔
            ¬ Misled rules selected (max y.first (db.window.start - 1))
              bound) := by
  have hrun : (Source.empty.readTexts [] [oneRuleText]).fault = none ∧
      ∃ db ∈ (Database.ofSource twoYears
        (Source.empty.readTexts [] [oneRuleText]).source).result.toOption,
        ∃ eras ∈ db.zones.get? "Z", ∃ p ∈ wholeYears eras,
          p.1.saving = .policy "P" ∧
          db.accurateFrom = Year.least ∧ db.accurateUntil = Year.never := by
    decide +kernel
  obtain ⟨hread, hmade⟩ := hrun
  obtain ⟨db, hdb, eras, hzone, ⟨era, y⟩, hera, hsaving, hfrom, huntil⟩ :=
    exists_eq_ok_of_toOption hmade
  exact ⟨db, eras, era, y, ⟨hread, hdb⟩, hzone, hera, hsaving, hfrom, huntil,
    MadeFrom.savingAt?_accurate_iff ⟨hread, hdb⟩ hzone hera hsaving⟩

/-- The only rule starts within the last hour of 1998, and its era ends with
that year. -/
def newYearsEveText : SourceText where
  name := "t"
  text := "R P 1998 o - Dec 31 23:30 1 D\n" ++
    "Z Z 0 P E%s 1999\n" ++
    " 0 - G\n"

def startOf1997 : LocalTime := ⟨.newYear 1997, 1⟩

/-- Nothing is cut off before the window, and yet an hour is saved in 1997, a
year before the first rule of the source. -/
theorem savingAt?_ne_newYearsEveText :
    ∃ db eras era y, MadeFrom twoYears [newYearsEveText] db ∧
      db.zones.get? "Z" = some eras ∧ (era, y) ∈ wholeYears eras ∧
      era.saving = .policy "P" ∧ db.accurateFrom = Year.least ∧
      y.first ≤ startOf1997.date.year ∧ startOf1997.date.year ≤ y.last ∧
      startOf1997.date.year < db.window.start - 1 ∧
      ∃ sources rules selected,
        (Source.empty.readTexts [] [newYearsEveText]).source.policies.get?
          "P" = some sources ∧
        (resolvePolicy db.widths db.strict sources).result = .ok rules ∧
        db.policies.get? "P" = some selected ∧
        savingAt? rules startOf1997 = none ∧
        savingAt? selected startOf1997 = some 3600 := by
  have hrun : (Source.empty.readTexts [] [newYearsEveText]).fault = none ∧
      ∃ db ∈ (Database.ofSource twoYears
        (Source.empty.readTexts [] [newYearsEveText]).source).result.toOption,
        ∃ eras ∈ db.zones.get? "Z", ∃ p ∈ wholeYears eras,
          p.1.saving = .policy "P" ∧ db.accurateFrom = Year.least ∧
          p.2.first ≤ startOf1997.date.year ∧
          startOf1997.date.year ≤ p.2.last ∧
          startOf1997.date.year < db.window.start - 1 ∧
          ((db.policies.get? "P").bind fun selected =>
            savingAt? selected startOf1997) = some 3600 ∧
          ∃ sources ∈ (Source.empty.readTexts []
              [newYearsEveText]).source.policies.get? "P",
            ∃ rules ∈ (resolvePolicy db.widths db.strict
                sources).result.toOption,
              savingAt? rules startOf1997 = none := by
    decide +kernel
  obtain ⟨hread, hmade⟩ := hrun
  obtain ⟨db, hdb, eras, hzone, ⟨era, y⟩, hera, hsaving, haccurate, hfirst,
    hlast, hyear, hkept, sources, hsources, hrules⟩ :=
    exists_eq_ok_of_toOption hmade
  obtain ⟨selected, hselected, hsummer⟩ := Option.bind_eq_some_iff.1 hkept
  obtain ⟨rules, hrules, hnone⟩ := exists_eq_ok_of_toOption hrules
  exact ⟨db, eras, era, y, ⟨hread, hdb⟩, hzone, hera, hsaving, haccurate,
    hfirst, hlast, hyear, sources, rules, selected, hsources, hrules,
    hselected, hnone, hsummer⟩

end ZoneTables
