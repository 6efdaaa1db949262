import ZoneTables.Proofs.Buffer.Spans
import ZoneTables.Proofs.Retention.Lookback

/-!
# How spans follow each other

The offset by which the end of an era is converted depends on the era and on
the rules of its policy, and not on the eras around it.  The spans of a zone
are told by these offsets: each span starts when the era before it ends and
stops when its own era does.  They cover all time, as the last one does not
stop.
-/

namespace ZoneTables

/-! ## Savings before a local time -/

def Era.SavesBefore (policies : Policies) (era : Era) (bound : LocalTime)
    (save : Int) : Prop :=
  match era.saving with
  | .standard => save = 0
  | .fixed amount => save = amount
  | .policy name =>
    ∃ rules, policies.get? name = some rules ∧
      savingAt? rules bound = some save

section Saves

variable {policies : Policies} {era : Era} {bound : LocalTime}
  {save save' : Int}

theorem Era.savesBefore_policy {name : String}
    (h : era.saving = .policy name) :
    era.SavesBefore policies bound save ↔
      ∃ rules, policies.get? name = some rules ∧
        savingAt? rules bound = some save := by
  unfold SavesBefore
  rw [h]

theorem Era.SavesBefore.congr {era' : Era}
    (h : era.SavesBefore policies bound save)
    (hsame : era.saving = era'.saving) :
    era'.SavesBefore policies bound save := by
  unfold SavesBefore at h ⊢
  rwa [← hsame]

theorem Era.SavesBefore.unique (h : era.SavesBefore policies bound save)
    (h' : era.SavesBefore policies bound save') : save = save' := by
  cases hsaving : era.saving with
  | standard =>
    simp only [Era.SavesBefore, hsaving] at h h'
    rw [h, h']
  | fixed amount =>
    simp only [Era.SavesBefore, hsaving] at h h'
    rw [h, h']
  | policy name =>
    rw [Era.savesBefore_policy hsaving] at h h'
    obtain ⟨rules, hrules, hsave⟩ := h
    obtain ⟨rules', hrules', hsave'⟩ := h'
    simp_all

theorem Span.IsOf.saveBefore_eq_ok_iff {s : Span} (h : s.IsOf policies era)
    (zone : String) :
    s.saveBefore zone bound = .ok save ↔
      era.SavesBefore policies bound save := by
  unfold Span.saveBefore Era.SavesBefore
  rw [h.era_eq]
  cases hsaving : era.saving with
  | standard => simp [eq_comm]
  | fixed amount => simp [eq_comm]
  | policy name =>
    obtain ⟨rules, hrules, hpolicy⟩ := h.policy name hsaving
    rw [hpolicy]
    simp only [hrules, Option.some.injEq, exists_eq_left', savingAt?]
    cases latestRule? rules bound with
    | none => simp
    | some rule => simp

end Saves

/-! ## Savings at any time -/

def Era.CanSave (policies : Policies) (era : Era) (save : Int) : Prop :=
  match era.saving with
  | .standard => save = 0
  | .fixed amount => save = amount
  | .policy name =>
    ∃ rules, policies.get? name = some rules ∧ ∃ r ∈ rules, r.save = save

theorem Era.SavesBefore.canSave {policies : Policies} {era : Era}
    {bound : LocalTime} {save : Int} (h : era.SavesBefore policies bound save) :
    era.CanSave policies save := by
  unfold SavesBefore at h
  unfold CanSave
  cases hsaving : era.saving with
  | standard => simpa [hsaving] using h
  | fixed amount => simpa [hsaving] using h
  | policy name =>
    simp only [hsaving] at h ⊢
    obtain ⟨rules, hrules, hsave⟩ := h
    obtain ⟨rule, hrule, hsave⟩ := Option.map_eq_some_iff.1 hsave
    exact ⟨rules, hrules, rule, (latestRule?_greatest hrule).1, hsave⟩

/-! ## Ends of eras -/

/-- Whether an era ends at a local time that is an offset ahead of universal
time.  On the wall clock the offset has the saving before the end in it. -/
structure Era.EndsAt (policies : Policies) (era : Era) (time : LocalTime)
    (offset : Int) : Prop where
  ends : era.ends.isEndless = false
  localTime : era.ends.localTime? = some time
  offset : ∃ save, offset = era.ends.frame.offset era.stdOffset save ∧
    (era.ends.frame = .wall → era.SavesBefore policies time save)

theorem Era.EndsAt.unique {policies : Policies} {era : Era}
    {time time' : LocalTime} {offset offset' : Int}
    (h : era.EndsAt policies time offset)
    (h' : era.EndsAt policies time' offset') :
    time = time' ∧ offset = offset' := by
  have htime : time = time' := by
    have hsame := h.localTime
    rw [h'.localTime] at hsame
    exact (Option.some.inj hsame).symm
  subst htime
  refine ⟨rfl, ?_⟩
  obtain ⟨save, rfl, hsave⟩ := h.offset
  obtain ⟨save', rfl, hsave'⟩ := h'.offset
  cases hframe : era.ends.frame with
  | wall => rw [(hsave hframe).unique (hsave' hframe)]
  | standard => rfl
  | utc => rfl

theorem Span.IsOf.endsAt {policies : Policies} {era : Era} {s : Span}
    (h : s.IsOf policies era) (hends : era.ends.isEndless = false)
    {time : LocalTime} (htime : era.ends.localTime? = some time)
    {zone : String} {save : Int} (hsave : s.endSave zone time = .ok save) :
    era.EndsAt policies time (era.ends.frame.offset era.stdOffset save) := by
  refine ⟨hends, htime, save, rfl, fun hwall => ?_⟩
  unfold Span.endSave at hsave
  rw [h.era_eq, hwall] at hsave
  exact (h.saveBefore_eq_ok_iff zone).1 hsave

/-! ## Spans of eras -/

/-- Whether spans are those of eras of which the first starts at an instant and
a local time, if it has a start. -/
inductive EraSpans (policies : Policies) :
    Option Int → Option LocalTime → List Era → List Span → Prop where
  /-- The last era does not end. -/
  | last {start : Option Int} {localStart : Option LocalTime} {era : Era}
      {policy : Option NamedPolicy} :
    era.ends.isEndless = true →
    Span.IsOf policies era ⟨era, policy, start, none, localStart⟩ →
    EraSpans policies start localStart [era]
      [⟨era, policy, start, none, localStart⟩]
  /-- An era that ends stands before eras that start when it does. -/
  | cons {start : Option Int} {localStart : Option LocalTime} {era : Era}
      {policy : Option NamedPolicy} {time : LocalTime} {offset stop : Int}
      {eras : List Era} {l : List Span} :
    era.EndsAt policies time offset → stop = time.unixSeconds - offset →
    Span.IsOf policies era ⟨era, policy, start, some stop, localStart⟩ →
    EraSpans policies (some stop) (some time) eras l →
    EraSpans policies start localStart (era :: eras)
      (⟨era, policy, start, some stop, localStart⟩ :: l)

theorem eraSpans_of_spansFrom {policies : Policies} {zone : String}
    {eras front : List Era} {last : Era} (h : Measurable policies eras)
    (hlast : last.ends.isEndless = true)
    (hfront : ∀ era ∈ front, era.ends.isEndless = false) :
    ∀ {start localStart l}, front ++ [last] ⊆ eras →
      spansFrom zone policies start localStart (front ++ [last]) = .ok l →
      EraSpans policies start localStart (front ++ [last]) l := by
  induction front with
  | nil =>
    intro start localStart l hsub hl
    obtain ⟨policy, hpolicy, hspan⟩ :=
      findPolicy_eq_ok h (hsub List.mem_cons_self) zone
    rw [List.nil_append, spansFrom_cons_endless hpolicy hlast] at hl
    cases hl
    exact .last hlast (hspan _ _ _)
  | cons era front ih =>
    intro start localStart l hsub hl
    have hera : era ∈ eras := hsub List.mem_cons_self
    have hends := hfront era List.mem_cons_self
    obtain ⟨policy, hpolicy, hspan⟩ := findPolicy_eq_ok h hera zone
    obtain ⟨time, htime, _⟩ := h.ends era hera hends
    rw [List.cons_append, spansFrom_cons_end hpolicy hends htime] at hl
    obtain ⟨save, hsave, hl⟩ := except_bind_eq_ok.1 hl
    obtain ⟨rest, hrest, heq⟩ := except_bind_eq_ok.1 hl
    cases heq
    refine .cons ((hspan start none localStart).endsAt hends htime hsave) rfl
      (hspan _ _ _) ?_
    exact ih (fun e he => hfront e (List.mem_cons_of_mem _ he))
      (fun e he => hsub (List.mem_cons_of_mem _ he)) hrest

theorem Measurable.eraSpans {policies : Policies} {zone : String}
    {eras : List Era} {l : List Span} (h : Measurable policies eras)
    (hl : spans zone policies eras = .ok l) :
    EraSpans policies none none eras l := by
  obtain ⟨front, last, heq, hfront, hlast⟩ := h.joined
  have hsub : front ++ [last] ⊆ eras := by
    rw [heq]
    exact List.Subset.refl _
  rw [heq] at hl ⊢
  exact eraSpans_of_spansFrom h hlast hfront hsub hl

theorem EraSpans.coverFrom {policies : Policies} {start : Option Int}
    {localStart : Option LocalTime} {eras : List Era} {l : List Span}
    (h : EraSpans policies start localStart eras l) : CoverFrom start l := by
  induction h with
  | last _ _ => exact coverFrom_cons_endless
  | cons _ _ _ _ ih => exact ih.cons

end ZoneTables
