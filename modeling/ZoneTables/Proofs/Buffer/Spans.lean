import ZoneTables.Proofs.Buffer.Lookback
import ZoneTables.Proofs.Calendar.Days
import ZoneTables.Proofs.Database.Contents
import ZoneTables.Buffer.Replay

/-!
# The spans of a zone

The eras of a made zone have spans unless an era ends on the wall clock before
any rule of its policy takes effect.
-/

namespace ZoneTables

/-! ## Zones that can be measured -/

/-- Whether eras follow each other, end at dates, and refer to policies with an
anchor. -/
structure Measurable (policies : Policies) (eras : List Era) : Prop where
  joined : Era.Joined eras
  ends : ∀ era ∈ eras, era.ends.isEndless = false →
    ∃ time, era.ends.localTime? = some time ∧ Year.least ≤ time.date.year
  policies : ∀ era ∈ eras, ∀ name, era.saving = .policy name →
    ∃ rules, policies.get? name = some rules ∧
      ∃ source year, anchorRule source year ∈ rules

theorem MadeOf.measurable {o : Options} {s : Source} {db : Database}
    (h : MadeOf o s db) {zone : String} {eras : List Era}
    (hzone : db.zones.get? zone = some eras) : Measurable db.policies eras where
  joined := h.joined hzone
  ends era hera hends := by
    have hdate := (h.era_isProper hzone era hera).ends.date
    rw [hends] at hdate
    obtain ⟨hleast, _, date, hdate⟩ := hdate.resolve_left Bool.false_ne_true
    have hyear := (Date.ofParts?_eq_some_iff.1 hdate).1.1
    refine ⟨⟨date, era.ends.seconds⟩, ?_, ?_⟩
    · unfold Until.localTime?
      rw [hdate]
      rfl
    · rw [hyear]
      exact hleast
  policies era hera name hsaving := by
    obtain ⟨rules, hrules⟩ := h.contains_policy hzone hera hsaving
    obtain ⟨_, resolved, _, _, heq⟩ := h.exists_policy hrules
    refine ⟨rules, hrules, resolved, o.window.start - 1, ?_⟩
    rw [heq]
    exact RuleSelection.mem_selected.2 (.inl rfl)

def Era.LacksRuleBefore (policies : Policies) (era : Era) (bound : LocalTime) :
    Prop :=
  ∃ name rules, era.saving = .policy name ∧
    policies.get? name = some rules ∧ latestRule? rules bound = none

theorem not_first_lt_of_lacksRuleBefore {policies : Policies}
    {eras : List Era} (h : Measurable policies eras) {era : Era}
    (hera : era ∈ eras) {bound : LocalTime}
    (hlacks : era.LacksRuleBefore policies bound) :
    ¬ LocalTime.first < bound := by
  obtain ⟨name, rules, hsaving, hrules, hnone⟩ := hlacks
  obtain ⟨rules', hrules', source, year, hanchor⟩ :=
    h.policies era hera name hsaving
  rw [hrules] at hrules'
  cases hrules'
  intro hlt
  have hsome := lastBeforeTime?_anchorRule source year hlt
  rw [latestRule?_eq_none.1 hnone _ hanchor] at hsome
  cases hsome

/-! ## One span -/

structure Span.IsOf (policies : Policies) (era : Era) (s : Span) : Prop where
  era_eq : s.era = era
  policy : ∀ name, era.saving = .policy name →
    ∃ rules, policies.get? name = some rules ∧ s.policy = some ⟨name, rules⟩
  noPolicy : era.saving.policy? = none → s.policy = none

theorem findPolicy_eq_ok {policies : Policies} {eras : List Era}
    (h : Measurable policies eras) {era : Era} (hera : era ∈ eras)
    (zone : String) :
    ∃ policy, findPolicy zone policies era.saving = .ok policy ∧
      ∀ start stop localStart,
        Span.IsOf policies era ⟨era, policy, start, stop, localStart⟩ := by
  have hnone : ∀ {Q : String → Prop}, (∀ name, era.saving ≠ .policy name) →
      ∀ name, era.saving = .policy name → Q name :=
    fun hne name heq => absurd heq (hne name)
  cases hsaving : era.saving with
  | standard =>
    exact ⟨none, rfl, fun _ _ _ => ⟨rfl, hnone (hsaving ▸ nofun), fun _ => rfl⟩⟩
  | fixed amount =>
    exact ⟨none, rfl, fun _ _ _ => ⟨rfl, hnone (hsaving ▸ nofun), fun _ => rfl⟩⟩
  | policy name =>
    obtain ⟨rules, hrules, source, year, hanchor⟩ :=
      h.policies era hera name hsaving
    refine ⟨some ⟨name, rules⟩, ?_, fun _ _ _ => ⟨rfl, fun name' hname => ?_, ?_⟩⟩
    · unfold findPolicy Saving.policy?
      dsimp only
      rw [hrules]
      cases rules with
      | nil => exact absurd hanchor List.not_mem_nil
      | cons first rest => rfl
    · rw [hsaving] at hname
      cases hname
      exact ⟨rules, hrules, rfl⟩
    · rw [hsaving]
      exact nofun

theorem Span.eq_noPriorRule_of_saveBefore {s : Span} {zone : String}
    {bound : LocalTime} {e : BufferError}
    (he : s.saveBefore zone bound = .error e) :
    ∃ policy, e = .noPriorRule zone policy bound.date.year := by
  unfold saveBefore at he
  split at he
  · cases he
  · cases he
  · split at he
    · cases he
    · split at he
      · cases he
      · cases he
        exact ⟨_, rfl⟩

namespace Span.IsOf

variable {policies : Policies} {era : Era} {s : Span}

theorem exists_policy (h : s.IsOf policies era) {policy : NamedPolicy}
    (hpolicy : s.policy = some policy) :
    era.saving = .policy policy.name ∧
      policies.get? policy.name = some policy.rules := by
  have hsome : ∃ name, era.saving.policy? = some name := by
    rw [← Option.isSome_iff_exists, Option.isSome_iff_ne_none]
    intro hnone
    rw [h.noPolicy hnone] at hpolicy
    cases hpolicy
  obtain ⟨name, hname⟩ := hsome
  have hsaving : era.saving = .policy name := by
    cases heq : era.saving with
    | policy name' =>
      rw [heq] at hname
      cases hname
      rfl
    | standard =>
      rw [heq] at hname
      cases hname
    | fixed amount =>
      rw [heq] at hname
      cases hname
  obtain ⟨rules, hrules, heq⟩ := h.policy name hsaving
  rw [hpolicy] at heq
  cases heq
  exact ⟨hsaving, hrules⟩

theorem saveBefore_eq_ok (h : s.IsOf policies era) (zone : String)
    (bound : LocalTime) :
    (∃ save, s.saveBefore zone bound = .ok save) ↔
      ¬ era.LacksRuleBefore policies bound := by
  unfold Span.saveBefore Era.LacksRuleBefore
  rw [h.era_eq]
  cases hsaving : era.saving with
  | standard =>
    constructor
    · rintro _ ⟨_, _, hpolicy, _⟩
      cases hpolicy
    · exact fun _ => ⟨0, rfl⟩
  | fixed amount =>
    constructor
    · rintro _ ⟨_, _, hpolicy, _⟩
      cases hpolicy
    · exact fun _ => ⟨amount, rfl⟩
  | policy name =>
    obtain ⟨rules, hrules, hpolicy⟩ := h.policy name hsaving
    rw [hpolicy]
    dsimp only
    cases hlatest : latestRule? rules bound with
    | none =>
      constructor
      · rintro ⟨_, hsave⟩
        cases hsave
      · exact fun hlacks => absurd ⟨name, rules, rfl, hrules, hlatest⟩ hlacks
    | some rule =>
      constructor
      · rintro _ ⟨name', rules', hname, hrules', hnone⟩
        cases hname
        rw [hrules] at hrules'
        cases hrules'
        rw [hlatest] at hnone
        cases hnone
      · exact fun _ => ⟨rule.save, rfl⟩

theorem saveBefore_eq_error (h : s.IsOf policies era) {zone : String}
    {bound : LocalTime} {e : BufferError}
    (he : s.saveBefore zone bound = .error e) :
    era.LacksRuleBefore policies bound ∧
      ∃ policy, e = .noPriorRule zone policy bound.date.year := by
  refine ⟨?_, Span.eq_noPriorRule_of_saveBefore he⟩
  by_contra hlacks
  obtain ⟨save, hsave⟩ := (h.saveBefore_eq_ok zone bound).2 hlacks
  rw [hsave] at he
  cases he

theorem endSave_eq_ok (h : s.IsOf policies era) (zone : String)
    (time : LocalTime) :
    (∃ save, s.endSave zone time = .ok save) ↔
      ¬ (era.ends.frame = .wall ∧ era.LacksRuleBefore policies time) := by
  unfold Span.endSave
  rw [h.era_eq]
  cases hframe : era.ends.frame with
  | wall =>
    rw [h.saveBefore_eq_ok]
    exact ⟨fun hnot hboth => hnot hboth.2, fun hnot hlacks => hnot ⟨rfl, hlacks⟩⟩
  | standard =>
    constructor
    · rintro _ ⟨hwall, _⟩
      cases hwall
    · exact fun _ => ⟨0, rfl⟩
  | utc =>
    constructor
    · rintro _ ⟨hwall, _⟩
      cases hwall
    · exact fun _ => ⟨0, rfl⟩

end Span.IsOf

/-! ## All spans of a zone -/

def Era.EndsBeforeRules (policies : Policies) (era : Era) : Prop :=
  era.ends.isEndless = false ∧ era.ends.frame = .wall ∧
    ∃ time, era.ends.localTime? = some time ∧ era.LacksRuleBefore policies time

section Spans

variable {policies : Policies} {zone : String} {era : Era} {rest : List Era}
  {start : Option Int} {localStart : Option LocalTime}
  {policy : Option NamedPolicy}

theorem spansFrom_cons_endless
    (hpolicy : findPolicy zone policies era.saving = .ok policy)
    (hends : era.ends.isEndless = true) :
    spansFrom zone policies start localStart (era :: rest) =
      (spansFrom zone policies start localStart rest >>= fun spans =>
        .ok (⟨era, policy, start, none, localStart⟩ :: spans)) := by
  rw [spansFrom, hpolicy]
  show (if era.ends.isEndless = true then _ else _) = _
  rw [if_pos hends]
  rfl

theorem spansFrom_cons_end {time : LocalTime}
    (hpolicy : findPolicy zone policies era.saving = .ok policy)
    (hends : era.ends.isEndless = false)
    (htime : era.ends.localTime? = some time) :
    spansFrom zone policies start localStart (era :: rest) =
      (Span.endSave zone ⟨era, policy, start, none, localStart⟩ time >>=
        fun save =>
          let stop := time.unixSeconds -
            era.ends.frame.offset era.stdOffset save
          spansFrom zone policies (some stop) (some time) rest >>= fun spans =>
            .ok (⟨era, policy, start, some stop, localStart⟩ :: spans)) := by
  rw [spansFrom, hpolicy]
  show (if era.ends.isEndless = true then _ else _) = _
  rw [if_neg (by rw [hends]; exact Bool.false_ne_true), htime]
  rfl

theorem eq_of_spansFrom_cons {l : List Span}
    (hl : spansFrom zone policies start localStart (era :: rest) = .ok l) :
    ∃ policy more, findPolicy zone policies era.saving = .ok policy ∧
      ((era.ends.isEndless = true ∧
        l = ⟨era, policy, start, none, localStart⟩ :: more ∧
        spansFrom zone policies start localStart rest = .ok more) ∨
      (era.ends.isEndless = false ∧ ∃ time stop,
        l = ⟨era, policy, start, some stop, localStart⟩ :: more ∧
        spansFrom zone policies (some stop) (some time) rest = .ok more)) := by
  have hparts := hl
  rw [spansFrom] at hparts
  obtain ⟨policy, hpolicy, hparts⟩ := except_bind_eq_ok.1 hparts
  cases hends : era.ends.isEndless with
  | true =>
    rw [spansFrom_cons_endless hpolicy hends] at hl
    obtain ⟨more, hmore, heq⟩ := except_bind_eq_ok.1 hl
    exact ⟨policy, more, hpolicy, .inl ⟨rfl, (Except.ok.inj heq).symm, hmore⟩⟩
  | false =>
    dsimp only at hparts
    rw [if_neg (by rw [hends]; exact Bool.false_ne_true)] at hparts
    cases htime : era.ends.localTime? with
    | none =>
      rw [htime] at hparts
      cases hparts
    | some time =>
      rw [spansFrom_cons_end hpolicy hends htime] at hl
      obtain ⟨save, _, hl⟩ := except_bind_eq_ok.1 hl
      obtain ⟨more, hmore, heq⟩ := except_bind_eq_ok.1 hl
      exact ⟨policy, more, hpolicy,
        .inr ⟨rfl, time, _, (Except.ok.inj heq).symm, hmore⟩⟩

theorem get?_of_findPolicy {saving : Saving} {named : NamedPolicy}
    (h : findPolicy zone policies saving = .ok (some named)) :
    policies.get? named.name = some named.rules := by
  unfold findPolicy at h
  split at h
  · cases h
  · split at h
    · cases h
    · cases h
    · rename_i hget
      cases h
      exact hget

theorem get?_of_mem_spansFrom {eras : List Era} :
    ∀ {start localStart l}, spansFrom zone policies start localStart eras = .ok l →
      ∀ s ∈ l, ∀ named, s.policy = some named →
        policies.get? named.name = some named.rules := by
  induction eras with
  | nil =>
    intro start localStart l hl
    cases hl
    exact List.forall_mem_nil _
  | cons era eras ih =>
    intro start localStart l hl
    obtain ⟨policy, more, hpolicy, ⟨_, rfl, hmore⟩ | ⟨_, _, _, rfl, hmore⟩⟩ :=
      eq_of_spansFrom_cons hl
    all_goals
      refine List.forall_mem_cons.2 ⟨fun named hnamed => ?_, ih hmore⟩
      exact get?_of_findPolicy (hpolicy.trans (congrArg Except.ok hnamed))

variable {eras : List Era} (h : Measurable policies eras)

include h

/-- A zone has spans unless an era ends before the rules of its policy. -/
theorem spansFrom_eq_ok {part : List Era} :
    ∀ {start localStart}, part ⊆ eras →
      ((∃ spans, spansFrom zone policies start localStart part = .ok spans) ↔
        ∀ era ∈ part, ¬ era.EndsBeforeRules policies) := by
  induction part with
  | nil =>
    exact fun _ => ⟨fun _ _ hmem => absurd hmem List.not_mem_nil,
      fun _ => ⟨[], rfl⟩⟩
  | cons era rest ih =>
    intro start localStart hsub
    have hera : era ∈ eras := hsub List.mem_cons_self
    have hrest : rest ⊆ eras := fun e he => hsub (List.mem_cons_of_mem _ he)
    obtain ⟨policy, hpolicy, hspan⟩ := findPolicy_eq_ok h hera zone
    rw [List.forall_mem_cons]
    cases hends : era.ends.isEndless with
    | true =>
      rw [spansFrom_cons_endless hpolicy hends, ← @ih start localStart hrest]
      constructor
      · rintro ⟨spans, hspans⟩
        obtain ⟨spans', hspans', _⟩ := except_bind_eq_ok.1 hspans
        refine ⟨fun hbad => ?_, spans', hspans'⟩
        rw [hbad.1] at hends
        cases hends
      · rintro ⟨_, spans, hspans⟩
        exact ⟨_, except_bind_eq_ok.2 ⟨spans, hspans, rfl⟩⟩
    | false =>
      obtain ⟨time, htime, _⟩ := h.ends era hera hends
      have hsave := (hspan start none localStart).endSave_eq_ok zone time
      have hbad : era.EndsBeforeRules policies ↔
          era.ends.frame = .wall ∧ era.LacksRuleBefore policies time := by
        constructor
        · rintro ⟨_, hwall, time', htime', hlacks⟩
          rw [htime] at htime'
          cases htime'
          exact ⟨hwall, hlacks⟩
        · rintro ⟨hwall, hlacks⟩
          exact ⟨hends, hwall, time, htime, hlacks⟩
      rw [spansFrom_cons_end hpolicy hends htime, hbad, ← hsave]
      constructor
      · rintro ⟨spans, hspans⟩
        obtain ⟨save, hsave, hspans⟩ := except_bind_eq_ok.1 hspans
        obtain ⟨spans', hspans', _⟩ := except_bind_eq_ok.1 hspans
        exact ⟨⟨save, hsave⟩, (ih hrest).1 ⟨spans', hspans'⟩⟩
      · rintro ⟨⟨save, hsave⟩, hgood⟩
        obtain ⟨spans, hspans⟩ := (ih hrest).2 hgood
        exact ⟨_, except_bind_eq_ok.2 ⟨save, hsave,
          except_bind_eq_ok.2 ⟨spans, hspans, rfl⟩⟩⟩

theorem spansFrom_eq_error {part : List Era} {e : BufferError} :
    ∀ {start localStart}, part ⊆ eras →
      spansFrom zone policies start localStart part = .error e →
      ∃ policy, e = .noPriorRule zone policy Year.least := by
  induction part with
  | nil => exact fun _ he => nomatch he
  | cons era rest ih =>
    intro start localStart hsub he
    have hera : era ∈ eras := hsub List.mem_cons_self
    have hrest : rest ⊆ eras := fun e he => hsub (List.mem_cons_of_mem _ he)
    obtain ⟨policy, hpolicy, hspan⟩ := findPolicy_eq_ok h hera zone
    cases hends : era.ends.isEndless with
    | true =>
      rw [spansFrom_cons_endless hpolicy hends] at he
      rcases except_bind_eq_error.1 he with he | ⟨_, _, he⟩
      · exact ih hrest he
      · cases he
    | false =>
      obtain ⟨time, htime, hleast⟩ := h.ends era hera hends
      rw [spansFrom_cons_end hpolicy hends htime] at he
      rcases except_bind_eq_error.1 he with he | ⟨save, _, he⟩
      · have hsaveBefore : Span.saveBefore zone
            ⟨era, policy, start, none, localStart⟩ time = .error e := by
          unfold Span.endSave at he
          split at he
          · exact he
          · cases he
        obtain ⟨hlacks, policy', rfl⟩ :=
          (hspan start none localStart).saveBefore_eq_error hsaveBefore
        have hnot := not_first_lt_of_lacksRuleBefore h hera hlacks
        have hyear : time.date.year = Year.least := by
          by_contra hne
          exact hnot (LocalTime.first_lt_of_year (by omega))
        exact ⟨policy', by rw [hyear]⟩
      · rcases except_bind_eq_error.1 he with he | ⟨_, _, he⟩
        · exact ih hrest he
        · cases he

theorem isOf_of_spansFrom {part : List Era} :
    ∀ {start localStart spans}, part ⊆ eras →
      (∀ time, localStart = some time → Year.least ≤ time.date.year) →
      spansFrom zone policies start localStart part = .ok spans →
      ∀ s ∈ spans, (∃ era ∈ eras, s.IsOf policies era) ∧
        ∀ time, s.localStart = some time → Year.least ≤ time.date.year := by
  induction part with
  | nil =>
    intro _ _ spans _ _ hspans s hs
    cases hspans
    exact absurd hs List.not_mem_nil
  | cons era rest ih =>
    intro start localStart spans hsub hstart hspans s hs
    have hera : era ∈ eras := hsub List.mem_cons_self
    have hrest : rest ⊆ eras := fun e he => hsub (List.mem_cons_of_mem _ he)
    obtain ⟨policy, hpolicy, hspan⟩ := findPolicy_eq_ok h hera zone
    cases hends : era.ends.isEndless with
    | true =>
      rw [spansFrom_cons_endless hpolicy hends] at hspans
      obtain ⟨spans', hspans', heq⟩ := except_bind_eq_ok.1 hspans
      cases heq
      rcases List.mem_cons.1 hs with rfl | hs
      · exact ⟨⟨era, hera, hspan _ _ _⟩, hstart⟩
      · exact ih hrest hstart hspans' s hs
    | false =>
      obtain ⟨time, htime, hleast⟩ := h.ends era hera hends
      rw [spansFrom_cons_end hpolicy hends htime] at hspans
      obtain ⟨save, _, hspans⟩ := except_bind_eq_ok.1 hspans
      obtain ⟨spans', hspans', heq⟩ := except_bind_eq_ok.1 hspans
      cases heq
      rcases List.mem_cons.1 hs with rfl | hs
      · exact ⟨⟨era, hera, hspan _ _ _⟩, hstart⟩
      · refine ih hrest (fun t ht => ?_) hspans' s hs
        cases ht
        exact hleast

end Spans

theorem Span.contains_iff {s : Span} {instant : Int} :
    s.contains instant ↔ (∀ t, s.start = some t → t ≤ instant) ∧
      ∀ t, s.stop = some t → instant < t := by
  unfold contains startsBy stopsAfter
  rw [Bool.and_eq_true]
  apply and_congr
  · cases s.start with
    | none => exact ⟨fun _ _ => nofun, fun _ => rfl⟩
    | some t =>
      rw [Option.all_some, decide_eq_true_eq]
      exact ⟨fun hle t' heq => Option.some.inj heq ▸ hle, fun h => h t rfl⟩
  · cases s.stop with
    | none => exact ⟨fun _ _ => nofun, fun _ => rfl⟩
    | some t =>
      rw [Option.all_some, decide_eq_true_eq]
      exact ⟨fun hlt t' heq => Option.some.inj heq ▸ hlt, fun h => h t rfl⟩

/-! ## Time that spans cover -/

/-- Whether spans cover all time from a start on, or all time without one. -/
def CoverFrom (start : Option Int) (l : List Span) : Prop :=
  ∀ instant, (∀ t, start = some t → t ≤ instant) → ∃ s ∈ l, s.contains instant

section CoverFrom

variable {start : Option Int} {localStart : Option LocalTime} {era : Era}
  {policy : Option NamedPolicy} {l : List Span}

theorem coverFrom_cons_endless :
    CoverFrom start (⟨era, policy, start, none, localStart⟩ :: l) :=
  fun _ hstart =>
    ⟨_, List.mem_cons_self, Span.contains_iff.2 ⟨hstart, nofun⟩⟩

/-- What a span leaves uncovered is covered by spans that start where it stops,
also if it stops before it starts. -/
theorem CoverFrom.cons {stop : Int} (h : CoverFrom (some stop) l) :
    CoverFrom start (⟨era, policy, start, some stop, localStart⟩ :: l) := by
  intro instant hstart
  by_cases hlt : instant < stop
  · -- the first era is still in force
    refine ⟨_, List.mem_cons_self, Span.contains_iff.2 ⟨hstart, ?_⟩⟩
    intro t ht
    cases ht
    exact hlt
  · obtain ⟨s, hs, hcontains⟩ := h instant fun t ht => by
      cases ht
      omega
    exact ⟨s, List.mem_cons_of_mem _ hs, hcontains⟩

/-- The spans of eras of which the last does not end cover all time from their
start on. -/
theorem coverFrom_of_spansFrom {zone : String} {policies : Policies}
    {eras : List Era} {last : Era} (hlast : eras.getLast? = some last)
    (hends : last.ends.isEndless = true) :
    ∀ {start localStart l},
      spansFrom zone policies start localStart eras = .ok l →
      CoverFrom start l := by
  induction eras with
  | nil => cases hlast
  | cons era rest ih =>
    intro start localStart l hl
    obtain ⟨policy, more, _, ⟨_, rfl, _⟩ | ⟨hnot, time, stop, rfl, hmore⟩⟩ :=
      eq_of_spansFrom_cons hl
    · exact coverFrom_cons_endless
    · -- an era that ends is not the last one
      cases rest with
      | nil =>
        obtain rfl : era = last := Option.some.inj hlast
        rw [hends] at hnot
        cases hnot
      | cons next rest =>
        rw [List.getLast?_cons_cons] at hlast
        exact (ih hlast hmore).cons

end CoverFrom

end ZoneTables
