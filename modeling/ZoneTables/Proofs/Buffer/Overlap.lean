import Mathlib.Data.List.Chain
import ZoneTables.Proofs.Buffer.Chain

/-!
# Spans that overlap

The ends of eras are in order as local times, but each is converted with the
offset of its own era.  If the offset rises by more than the local time between
two ends, the later of them is the earlier instant.  The span between the ends
is then upside down, and the next span starts before the one in front of it
stops.  Nothing else makes the spans of a zone overlap.
-/

namespace ZoneTables

/-- Whether a span stops after it starts, as far as it does both. -/
def Span.IsForward (s : Span) : Prop :=
  ∀ start stop, s.start = some start → s.stop = some stop → start < stop

def Span.Disjoint (s s' : Span) : Prop :=
  ∀ instant, s.contains instant → ¬ s'.contains instant

/-- Whether the end of an era is so many seconds before that of another one:
the local time between the ends, less what the offset rises. -/
def Era.EndsBeforeBy (policies : Policies) (a b : Era) (seconds : Int) : Prop :=
  ∃ time offset time' offset', a.EndsAt policies time offset ∧
    b.EndsAt policies time' offset' ∧
    seconds = (time'.unixSeconds - time.unixSeconds) - (offset' - offset)

section Chain

variable {policies : Policies} {a b : Era} {time time' : LocalTime}
  {offset offset' seconds : Int}

theorem Era.EndsAt.endsBeforeBy_iff (ha : a.EndsAt policies time offset)
    (hb : b.EndsAt policies time' offset') :
    a.EndsBeforeBy policies b seconds ↔
      seconds = (time'.unixSeconds - offset') - (time.unixSeconds - offset) := by
  constructor
  · intro h
    obtain ⟨_, _, _, _, ha', hb', rfl⟩ := h
    obtain ⟨rfl, rfl⟩ := ha.unique ha'
    obtain ⟨rfl, rfl⟩ := hb.unique hb'
    omega
  · intro h
    exact ⟨time, offset, time', offset', ha, hb, by omega⟩

theorem Era.not_endsBeforeBy_of_isEndless (hb : b.ends.isEndless = true) :
    ¬ a.EndsBeforeBy policies b seconds := by
  intro h
  obtain ⟨_, _, _, _, _, hends, _⟩ := h
  rw [hends.ends] at hb
  cases hb

variable {eras : List Era} {l : List Span} {localStart : Option LocalTime}
  {start : Int}

theorem EraSpans.forward_iff
    (h : EraSpans policies (some start) localStart eras l)
    (ha : a.EndsAt policies time offset)
    (hstart : start = time.unixSeconds - offset) :
    (∀ s ∈ l, s.IsForward) ↔
      (a :: eras).IsChain fun a b =>
        ∀ seconds, a.EndsBeforeBy policies b seconds → 0 < seconds := by
  generalize heq : some start = first at h
  induction h generalizing a start time offset with
  | @last _ _ era _ hends _ =>
    rw [List.isChain_cons_cons]
    constructor
    · intro _
      refine ⟨fun seconds hby => ?_, List.isChain_singleton _⟩
      exact absurd hby (Era.not_endsBeforeBy_of_isEndless hends)
    · intro _ s hs
      rw [List.mem_singleton.1 hs]
      exact fun _ _ _ => nofun
  | @cons _ localStart era policy time' offset' stop eras l hb hstop _ _ ih =>
    subst heq
    have hspan : Span.IsForward ⟨era, policy, some start, some stop, localStart⟩ ↔
        ∀ seconds, a.EndsBeforeBy policies era seconds → 0 < seconds := by
      simp only [ha.endsBeforeBy_iff hb, forall_eq]
      constructor
      · intro hforward
        have := hforward start stop rfl rfl
        omega
      · intro hpositive t t' ht ht'
        cases ht
        cases ht'
        omega
    rw [List.isChain_cons_cons, List.forall_mem_cons, ih hb hstop rfl, hspan]

theorem EraSpans.disjoint_iff
    (h : EraSpans policies (some start) localStart eras l)
    (ha : a.EndsAt policies time offset)
    (hstart : start = time.unixSeconds - offset) :
    (l.Pairwise Span.Disjoint ∧
        ∀ s ∈ l, ∀ instant, s.contains instant → start ≤ instant) ↔
      (a :: eras).IsChain fun a b =>
        ∀ seconds, a.EndsBeforeBy policies b seconds → 0 ≤ seconds := by
  generalize heq : some start = first at h
  induction h generalizing a start time offset with
  | @last _ _ era _ hends _ =>
    subst heq
    rw [List.isChain_cons_cons]
    constructor
    · intro _
      refine ⟨fun seconds hby => ?_, List.isChain_singleton _⟩
      exact absurd hby (Era.not_endsBeforeBy_of_isEndless hends)
    · intro _
      refine ⟨List.pairwise_singleton _ _, fun s hs instant hcontains => ?_⟩
      rw [List.mem_singleton.1 hs] at hcontains
      exact (Span.contains_iff.1 hcontains).1 start rfl
  | @cons _ localStart era policy time' offset' stop eras l hb hstop _ hrest ih =>
    subst heq
    have hby : (∀ seconds, a.EndsBeforeBy policies era seconds → 0 ≤ seconds) ↔
        start ≤ stop := by
      simp only [ha.endsBeforeBy_iff hb, forall_eq]
      omega
    have hfirst : ∀ instant,
        (⟨era, policy, some start, some stop, localStart⟩ : Span).contains
          instant ↔ start ≤ instant ∧ instant < stop := by
      intro instant
      simp [Span.contains_iff]
    rw [List.isChain_cons_cons, ← ih hb hstop rfl, hby, List.pairwise_cons,
      List.forall_mem_cons]
    constructor
    · rintro ⟨⟨hdisjoint, hpairwise⟩, _, hbehind⟩
      have hle : start ≤ stop := by
        -- some span contains the end of the first one
        have hcover : ∃ s ∈ l, s.contains stop := by
          apply hrest.coverFrom
          simp
        obtain ⟨s, hs, hcontains⟩ := hcover
        exact hbehind s hs stop hcontains
      refine ⟨hle, hpairwise, fun s hs instant hcontains => ?_⟩
      by_contra hlt
      have hin := (hfirst instant).2 ⟨hbehind s hs instant hcontains, by omega⟩
      exact hdisjoint s hs instant hin hcontains
    · rintro ⟨hle, hpairwise, hbehind⟩
      refine ⟨⟨fun s hs instant hin hcontains => ?_, hpairwise⟩,
        fun instant hin => ((hfirst instant).1 hin).1,
        fun s hs instant hcontains => ?_⟩
      · have := ((hfirst instant).1 hin).2
        have := hbehind s hs instant hcontains
        omega
      · have := hbehind s hs instant hcontains
        omega

end Chain

/-! ## All spans of a zone -/

section Zone

variable {policies : Policies} {eras : List Era} {l : List Span}

theorem EraSpans.all_forward_iff (h : EraSpans policies none none eras l) :
    (∀ s ∈ l, s.IsForward) ↔
      eras.IsChain fun a b =>
        ∀ seconds, a.EndsBeforeBy policies b seconds → 0 < seconds := by
  cases h with
  | last _ _ =>
    constructor
    · exact fun _ => List.isChain_singleton _
    · intro _ s hs
      rw [List.mem_singleton.1 hs]
      exact fun _ _ => nofun
  | cons hends hstop _ hrest =>
    rw [List.forall_mem_cons, ← hrest.forward_iff hends hstop]
    exact and_iff_right fun _ _ => nofun

theorem EraSpans.all_disjoint_iff (h : EraSpans policies none none eras l) :
    l.Pairwise Span.Disjoint ↔
      eras.IsChain fun a b =>
        ∀ seconds, a.EndsBeforeBy policies b seconds → 0 ≤ seconds := by
  cases h with
  | last _ _ =>
    exact ⟨fun _ => List.isChain_singleton _,
      fun _ => List.pairwise_singleton _ _⟩
  | @cons _ _ era policy time offset stop eras l hends hstop _ hrest =>
    have hfirst : ∀ instant,
        (⟨era, policy, none, some stop, none⟩ : Span).contains instant ↔
          instant < stop := by
      intro instant
      simp [Span.contains_iff]
    rw [← hrest.disjoint_iff hends hstop, List.pairwise_cons, and_comm]
    apply and_congr_right
    intro _
    apply forall₂_congr
    intro s _
    constructor
    · intro hdisjoint instant hcontains
      by_contra hlt
      exact hdisjoint instant ((hfirst instant).2 (by omega)) hcontains
    · intro hbehind instant hin hcontains
      have := (hfirst instant).1 hin
      have := hbehind instant hcontains
      omega

end Zone

/-! ## Bounds -/

theorem MadeOf.natAbs_le_of_canSave {o : Options} {s : Source} {db : Database}
    (h : MadeOf o s db) {zone : String} {eras : List Era}
    (hzone : db.zones.get? zone = some eras) {era : Era} (hera : era ∈ eras)
    {save : Int} (hsave : era.CanSave db.policies save) :
    save.natAbs ≤ Clock.greatest := by
  unfold Era.CanSave at hsave
  cases hsaving : era.saving with
  | standard =>
    simp only [hsaving] at hsave
    rw [hsave]
    exact Nat.zero_le _
  | fixed amount =>
    simp only [hsaving] at hsave
    have hproper := (h.era_isProper hzone era hera).saving
    rw [hsaving] at hproper
    rw [hsave]
    exact hproper.2
  | policy name =>
    simp only [hsaving] at hsave
    obtain ⟨rules, hrules, rule, hmem, rfl⟩ := hsave
    exact (h.rule_isProper hrules rule hmem).save.2

theorem MadeOf.natAbs_offset_le {o : Options} {s : Source} {db : Database}
    (h : MadeOf o s db) {zone : String} {eras : List Era}
    (hzone : db.zones.get? zone = some eras) {era : Era} (hera : era ∈ eras)
    {time : LocalTime} {offset : Int}
    (hends : era.EndsAt db.policies time offset) :
    offset.natAbs ≤ 2 * Clock.greatest := by
  obtain ⟨save, rfl, hsave⟩ := hends.offset
  have hoffset := (h.era_isProper hzone era hera).stdOffset.2
  cases hframe : era.ends.frame with
  | wall =>
    have := h.natAbs_le_of_canSave hzone hera (hsave hframe).canSave
    simp only [TimeFrame.offset]
    omega
  | standard =>
    simp only [TimeFrame.offset]
    omega
  | utc =>
    simp only [TimeFrame.offset]
    omega

/-! ## Databases -/

def Era.EndsLongBefore (a b : Era) : Prop :=
  ∀ time time', a.ends.localTime? = some time →
    b.ends.localTime? = some time' →
    4 * (Clock.greatest : Int) < time'.unixSeconds - time.unixSeconds

/-- The spans of a zone of a made database stop after they start exactly if
between any two neighbouring ends more local time passes than the offset rises,
and no instant is in two of them exactly if no less passes.  Both hold where
eras are long. -/
theorem MadeFrom.spans_disjoint_iff {o : Options} {texts : List SourceText}
    {db : Database} (h : MadeFrom o texts db) {zone : String}
    {eras : List Era} (hzone : db.zones.get? zone = some eras)
    {l : List Span} (hl : spans zone db.policies eras = .ok l) :
    ((∀ s ∈ l, s.IsForward) ↔
        eras.IsChain fun a b =>
          ∀ seconds, a.EndsBeforeBy db.policies b seconds → 0 < seconds) ∧
      (l.Pairwise Span.Disjoint ↔
        eras.IsChain fun a b =>
          ∀ seconds, a.EndsBeforeBy db.policies b seconds → 0 ≤ seconds) ∧
      (eras.IsChain Era.EndsLongBefore →
        (∀ s ∈ l, s.IsForward) ∧ l.Pairwise Span.Disjoint) := by
  obtain ⟨s, hmade, _⟩ := h.exists_source
  have hspans := (hmade.measurable hzone).eraSpans hl
  refine ⟨hspans.all_forward_iff, hspans.all_disjoint_iff, fun hlong => ?_⟩
  have hpositive : eras.IsChain fun a b =>
      ∀ seconds, a.EndsBeforeBy db.policies b seconds → 0 < seconds := by
    refine List.IsChain.imp_of_mem_imp ?_ hlong
    intro a b ha hb hab seconds hby
    obtain ⟨time, offset, time', offset', hstart, hstop, rfl⟩ := hby
    have := hab time time' hstart.localTime hstop.localTime
    have := hmade.natAbs_offset_le hzone ha hstart
    have := hmade.natAbs_offset_le hzone hb hstop
    omega
  refine ⟨hspans.all_forward_iff.2 hpositive, hspans.all_disjoint_iff.2 ?_⟩
  exact hpositive.imp fun a b hab seconds hby => Int.le_of_lt (hab seconds hby)

theorem spans_disjoint_iff_lateMarchText :
    ∃ db eras l, MadeFrom twoYears [lateMarchText] db ∧
      db.zones.get? "Z" = some eras ∧ spans "Z" db.policies eras = .ok l ∧
      l.length = 2 ∧
      ((∀ s ∈ l, s.IsForward) ↔
        eras.IsChain fun a b =>
          ∀ seconds, a.EndsBeforeBy db.policies b seconds → 0 < seconds) ∧
      (l.Pairwise Span.Disjoint ↔
        eras.IsChain fun a b =>
          ∀ seconds, a.EndsBeforeBy db.policies b seconds → 0 ≤ seconds) ∧
      (eras.IsChain Era.EndsLongBefore →
        (∀ s ∈ l, s.IsForward) ∧ l.Pairwise Span.Disjoint) := by
  have hrun : (Source.empty.readTexts [] [lateMarchText]).fault = none ∧
      ∃ db ∈ (Database.ofSource twoYears
        (Source.empty.readTexts [] [lateMarchText]).source).result.toOption,
        ∃ eras ∈ db.zones.get? "Z",
          ∃ l ∈ (spans "Z" db.policies eras).toOption, l.length = 2 := by
    decide +kernel
  obtain ⟨hread, hmade⟩ := hrun
  obtain ⟨db, hdb, eras, hzone, hspans⟩ := exists_eq_ok_of_toOption hmade
  obtain ⟨l, hl, hlength⟩ := exists_eq_ok_of_toOption hspans
  exact ⟨db, eras, l, ⟨hread, hdb⟩, hzone, hl, hlength,
    MadeFrom.spans_disjoint_iff ⟨hread, hdb⟩ hzone hl⟩

/-- A zone that moves its clock by a day for an hour. -/
def movedClockText : SourceText where
  name := "t"
  text := "Z Z -12 - A 2000\n" ++
    " 12 - B 2000 Jan 1 1:00\n" ++
    " 0 - C\n"

/-- The second era of the zone stops 23 hours before it starts, and the start
of 2000 in universal time is in the first and in the last era. -/
theorem not_disjoint_movedClockText :
    ∃ db eras l, MadeFrom twoYears [movedClockText] db ∧
      db.zones.get? "Z" = some eras ∧ spans "Z" db.policies eras = .ok l ∧
      (∃ s ∈ l, s.start = some 946728000 ∧ s.stop = some 946645200) ∧
      (l.map fun s => s.contains 946684800) = [true, false, true] := by
  have hrun : (Source.empty.readTexts [] [movedClockText]).fault = none ∧
      ∃ db ∈ (Database.ofSource twoYears
        (Source.empty.readTexts [] [movedClockText]).source).result.toOption,
        ∃ eras ∈ db.zones.get? "Z",
          ∃ l ∈ (spans "Z" db.policies eras).toOption,
            (∃ s ∈ l, s.start = some 946728000 ∧ s.stop = some 946645200) ∧
            (l.map fun s => s.contains 946684800) = [true, false, true] := by
    decide +kernel
  obtain ⟨hread, hmade⟩ := hrun
  obtain ⟨db, hdb, eras, hzone, hspans⟩ := exists_eq_ok_of_toOption hmade
  obtain ⟨l, hl, hrest⟩ := exists_eq_ok_of_toOption hspans
  exact ⟨db, eras, l, ⟨hread, hdb⟩, hzone, hl, hrest⟩

end ZoneTables
