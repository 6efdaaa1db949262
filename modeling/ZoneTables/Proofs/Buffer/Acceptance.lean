import ZoneTables.Proofs.Buffer.Chain
import ZoneTables.Proofs.Buffer.Sizes
import ZoneTables.Proofs.Database.Dates

/-!
# Databases whose buffers can be measured

A database is made without a look at two things that a replay needs: that the
month has the day next to which a rule takes effect, in every year, and that
there is a rule before times on the first day of all.  Whatever else could
stop a replay is excluded when the database is made.
-/

namespace ZoneTables

theorem exists_mem_zipIdx {α : Type} {l : List α} {a : α} :
    (∃ i, (a, i) ∈ l.zipIdx) ↔ a ∈ l := by
  constructor
  · rintro ⟨i, h⟩
    rw [← List.zipIdx_map_fst 0 l]
    exact List.mem_map.2 ⟨(a, i), h, rfl⟩
  · intro h
    rw [← List.zipIdx_map_fst 0 l] at h
    obtain ⟨⟨a', i⟩, hmem, rfl⟩ := List.mem_map.1 h
    exact ⟨i, hmem⟩

/-! ## One span in a year -/

/-- Whether an era starts in a year before any rule of its policy takes
effect. -/
def Span.StartsBeforeRules (policies : Policies) (bounds : YearBounds)
    (s : Span) : Prop :=
  s.startsIn bounds ∧ ∃ time, s.localStart = some time ∧
    s.era.LacksRuleBefore policies time.nextSecond

section OneSpan

variable {policies : Policies} {era : Era} {z : ZoneReplay} {s : Span}
  {bounds : YearBounds} {index : Nat} {year : Int} {e : BufferError}

theorem span_of_activate {a : ActiveSpan}
    (h : z.activate bounds index s = .ok a) : a.span = s := by
  unfold ZoneReplay.activate at h
  split at h
  · split at h
    · obtain ⟨save, _, heq⟩ := except_bind_eq_ok.1 h
      cases heq
      rfl
    · cases h
      rfl
  · cases h
    rfl

theorem activate_eq_ok (h : s.IsOf policies era) :
    (∃ a, z.activate bounds index s = .ok a) ↔
      ¬ s.StartsBeforeRules policies bounds := by
  unfold ZoneReplay.activate Span.StartsBeforeRules
  cases hstart : s.start with
  | none =>
    have hnot : s.startsIn bounds = false := by
      unfold Span.startsIn
      rw [hstart]
      rfl
    rw [hnot]
    constructor
    · rintro _ ⟨hin, _⟩
      cases hin
    · exact fun _ => ⟨_, rfl⟩
  | some start =>
    cases htime : s.localStart with
    | none =>
      constructor
      · rintro _ ⟨_, _, hnone, _⟩
        cases hnone
      · exact fun _ => ⟨_, rfl⟩
    | some time =>
      dsimp only
      split
      · rename_i hin
        have hsave := h.saveBefore_eq_ok z.zone time.nextSecond
        rw [h.era_eq]
        constructor
        · rintro ⟨a, ha⟩ ⟨_, time', heq, hlacks⟩
          cases heq
          obtain ⟨save, hok, _⟩ := except_bind_eq_ok.1 ha
          exact hsave.1 ⟨save, hok⟩ hlacks
        · intro hnot
          obtain ⟨save, hok⟩ :=
            hsave.2 fun hlacks => hnot ⟨hin, time, rfl, hlacks⟩
          exact ⟨_, except_bind_eq_ok.2 ⟨save, hok, rfl⟩⟩
      · rename_i hout
        exact ⟨fun _ hboth => hout hboth.1, fun _ => ⟨_, rfl⟩⟩

theorem exists_saveBefore_of_activate
    (he : z.activate bounds index s = .error e) :
    ∃ time, s.localStart = some time ∧
      s.saveBefore z.zone time.nextSecond = .error e := by
  unfold ZoneReplay.activate at he
  split at he
  · rename_i start time _ htime
    split at he
    · rcases except_bind_eq_error.1 he with he | ⟨_, _, he⟩
      · exact ⟨time, htime, he⟩
      · cases he
    · cases he
  · cases he

theorem activate_eq_error (h : s.IsOf policies era)
    (he : z.activate bounds index s = .error e) :
    ∃ time policy, s.localStart = some time ∧
      era.LacksRuleBefore policies time.nextSecond ∧
      e = .noPriorRule z.zone policy time.date.year := by
  obtain ⟨time, htime, he⟩ := exists_saveBefore_of_activate he
  obtain ⟨hlacks, policy, heq⟩ := h.saveBefore_eq_error he
  exact ⟨time, policy, htime, hlacks, heq⟩

theorem pending_eq_ok {a : ActiveSpan} (hdates : Datable policies)
    (h : a.span.IsOf policies era) :
    (∃ ps, a.pending year = .ok ps) ↔ ¬ era.LacksDay policies year := by
  unfold ActiveSpan.pending Era.LacksDay
  cases hpolicy : a.span.policy with
  | none =>
    constructor
    · rintro _ ⟨name, rules, hsaving, _⟩
      obtain ⟨_, _, hsome⟩ := h.policy name hsaving
      rw [hpolicy] at hsome
      cases hsome
    · exact fun _ => ⟨[], rfl⟩
  | some policy =>
    obtain ⟨hsaving, hrules⟩ := h.exists_policy hpolicy
    dsimp only
    rw [exists_mapM_eq_ok]
    constructor
    · rintro hall ⟨name', rules', hname, hrules', r, hr, hlacks⟩
      rw [hsaving] at hname
      cases hname
      rw [hrules] at hrules'
      cases hrules'
      obtain ⟨i, hi⟩ := exists_mem_zipIdx.2 hr
      obtain ⟨p, hp⟩ := hall (r, i) (List.mem_filter.2 ⟨hi, hlacks.1⟩)
      dsimp only at hp
      split at hp
      · rename_i time htime
        refine (hdates _ _ hrules r hr year hlacks.1).1 ?_ hlacks
        rw [htime]
        rfl
      · cases hp
    · rintro hnot ⟨r, i⟩ hp
      obtain ⟨hmem, hcovers⟩ := List.mem_filter.1 hp
      have hr : r ∈ policy.rules := exists_mem_zipIdx.1 ⟨i, hmem⟩
      have hsome := (hdates _ _ hrules r hr year hcovers).2
        fun hlacks => hnot ⟨_, _, hsaving, hrules, r, hr, hlacks⟩
      obtain ⟨time, htime⟩ := Option.isSome_iff_exists.1 hsome
      dsimp only
      rw [htime]
      exact ⟨_, rfl⟩

theorem pending_eq_error {a : ActiveSpan} (he : a.pending year = .error e) :
    ∃ policy, e = .invalidRuleDate policy year := by
  unfold ActiveSpan.pending at he
  split at he
  · cases he
  · obtain ⟨⟨rule, i⟩, _, he⟩ := exists_of_mapM_eq_error he
    dsimp only at he
    split at he
    · cases he
    · cases he
      exact ⟨_, rfl⟩

end OneSpan

/-! ## All spans in a year -/

section OneYear

variable {policies : Policies} {z : ZoneReplay} {bounds : YearBounds}
  {year save : Int} {e : BufferError}

theorem collect_eq_ok {l : List (Span × Nat)} :
    (∃ r, z.collect year bounds l = .ok r) ↔
      ∀ p ∈ l, ∃ a, z.activate bounds p.2 p.1 = .ok a ∧
        ∃ ps, a.pending year = .ok ps := by
  induction l with
  | nil => exact ⟨fun _ _ h => absurd h List.not_mem_nil, fun _ => ⟨_, rfl⟩⟩
  | cons p l ih =>
    obtain ⟨s, index⟩ := p
    rw [List.forall_mem_cons, ← ih, ZoneReplay.collect]
    constructor
    · rintro ⟨r, hr⟩
      obtain ⟨a, ha, hr⟩ := except_bind_eq_ok.1 hr
      obtain ⟨ps, hps, hr⟩ := except_bind_eq_ok.1 hr
      obtain ⟨rest, hrest, _⟩ := except_bind_eq_ok.1 hr
      exact ⟨⟨a, ha, ps, hps⟩, rest, hrest⟩
    · rintro ⟨⟨a, ha, ps, hps⟩, rest, hrest⟩
      exact ⟨_, except_bind_eq_ok.2 ⟨a, ha, except_bind_eq_ok.2 ⟨ps, hps,
        except_bind_eq_ok.2 ⟨rest, hrest, rfl⟩⟩⟩⟩

theorem collect_eq_error {l : List (Span × Nat)}
    (he : z.collect year bounds l = .error e) :
    ∃ p ∈ l, z.activate bounds p.2 p.1 = .error e ∨
      ∃ a : ActiveSpan, a.pending year = .error e := by
  induction l with
  | nil => cases he
  | cons p l ih =>
    obtain ⟨s, index⟩ := p
    rw [ZoneReplay.collect] at he
    rcases except_bind_eq_error.1 he with he | ⟨a, _, he⟩
    · exact ⟨_, List.mem_cons_self, .inl he⟩
    · rcases except_bind_eq_error.1 he with he | ⟨ps, _, he⟩
      · exact ⟨_, List.mem_cons_self, .inr ⟨a, he⟩⟩
      · rcases except_bind_eq_error.1 he with he | ⟨rest, _, he⟩
        · obtain ⟨p, hp, hcause⟩ := ih he
          exact ⟨p, List.mem_cons_of_mem _ hp, hcause⟩
        · cases he

/-- Whether a span stands in the way of a replay of a year. -/
def Span.Obstructs (policies : Policies) (year : Int) (s : Span) : Prop :=
  ∃ bounds, yearBounds? year = some bounds ∧ s.isActive bounds ∧
    (s.StartsBeforeRules policies bounds ∨ s.era.LacksDay policies year)

theorem isActive_of_near {s : Span} {instant : Int}
    (hfirst : bounds.start - yearSlack ≤ instant)
    (hlast : instant < bounds.stop + yearSlack) (h : s.contains instant) :
    s.isActive bounds := by
  obtain ⟨hstart, hstop⟩ := Span.contains_iff.1 h
  unfold Span.isActive Span.stopsAfter
  rw [Bool.and_eq_true]
  constructor
  · cases heq : s.start with
    | none => rfl
    | some start =>
      have hle := hstart start heq
      exact decide_eq_true (by omega : start < bounds.stop + yearSlack)
  · cases heq : s.stop with
    | none => rfl
    | some stop =>
      have hlt := hstop stop heq
      exact decide_eq_true (by omega : bounds.start - yearSlack < stop)

theorem isActive_of_contains {s : Span} (hbounds : bounds.start < bounds.stop)
    (h : s.contains bounds.start) : s.isActive bounds := by
  have hslack : 0 < yearSlack := by decide
  exact isActive_of_near (by omega) (by omega) h

theorem exists_candidates_iff_collect (hbounds : yearBounds? year = some bounds)
    (hlt : bounds.start < bounds.stop)
    (hcover : ∀ instant, ∃ s ∈ z.spans, s.contains instant) :
    (∃ cs, z.candidates year save = .ok cs) ↔
      ∃ r, z.collect year bounds
        (z.spans.zipIdx.filter fun p => p.1.isActive bounds) = .ok r := by
  constructor
  · rintro ⟨cs, hcs⟩
    obtain ⟨starts, pending, ⟨bounds', hbounds', _, hr⟩, _⟩ :=
      ZoneReplay.candidates_eq_ok.1 hcs
    rw [hbounds] at hbounds'
    cases hbounds'
    exact ⟨_, hr⟩
  · rintro ⟨⟨starts, pending⟩, hr⟩
    obtain ⟨s, hs, hcontains⟩ := hcover bounds.start
    obtain ⟨index, hmem⟩ := exists_mem_zipIdx.2 hs
    exact ⟨_, ZoneReplay.candidates_eq_ok.2 ⟨starts, pending,
      ⟨bounds, hbounds, ⟨_, hmem, isActive_of_contains hlt hcontains⟩, hr⟩,
      rfl⟩⟩

theorem collect_eq_error_of_candidates
    (hbounds : yearBounds? year = some bounds) (hlt : bounds.start < bounds.stop)
    (hcover : ∀ instant, ∃ s ∈ z.spans, s.contains instant)
    (he : z.candidates year save = .error e) :
    z.collect year bounds
      (z.spans.zipIdx.filter fun p => p.1.isActive bounds) = .error e := by
  obtain ⟨s, hs, hcontains⟩ := hcover bounds.start
  obtain ⟨index, hmem⟩ := exists_mem_zipIdx.2 hs
  unfold ZoneReplay.candidates ZoneReplay.found at he
  rw [hbounds] at he
  dsimp only at he
  split at he
  · rename_i hempty
    rw [List.isEmpty_iff, List.filter_eq_nil_iff] at hempty
    exact absurd (isActive_of_contains hlt hcontains) (hempty _ hmem)
  · cases hcollect : z.collect year bounds
        (z.spans.zipIdx.filter fun p => p.1.isActive bounds) with
    | ok r =>
      rw [hcollect] at he
      cases he
    | error e' =>
      rw [hcollect] at he
      cases he
      rfl

variable (hspans : ∀ s ∈ z.spans, ∃ era, s.IsOf policies era)

include hspans

theorem candidates_eq_error
    (hcover : ∀ instant, ∃ s ∈ z.spans, s.contains instant)
    (hleast : Year.least ≤ year) (hendless : year ≤ Year.endless)
    (he : z.candidates year save = .error e) :
    (∃ s ∈ z.spans, ∃ time policy, s.localStart = some time ∧
        s.era.LacksRuleBefore policies time.nextSecond ∧
        e = .noPriorRule z.zone policy time.date.year) ∨
      ∃ policy, e = .invalidRuleDate policy year := by
  obtain ⟨bounds, hbounds, hlt⟩ := exists_yearBounds hleast hendless
  obtain ⟨p, hp, hactivate | ⟨a, hpending⟩⟩ :=
    collect_eq_error (collect_eq_error_of_candidates hbounds hlt hcover he)
  · have hp' := exists_mem_zipIdx.1 ⟨p.2, (List.mem_filter.1 hp).1⟩
    obtain ⟨era, hera⟩ := hspans p.1 hp'
    obtain ⟨time, policy, htime, hlacks, heq⟩ :=
      activate_eq_error hera hactivate
    rw [← hera.era_eq] at hlacks
    exact .inl ⟨p.1, hp', time, policy, htime, hlacks, heq⟩
  · exact .inr (pending_eq_error hpending)

/-- A year has candidates unless a span stands in the way, whatever saving is
carried into it. -/
theorem exists_candidates_iff (hdates : Datable policies)
    (hcover : ∀ instant, ∃ s ∈ z.spans, s.contains instant)
    (hleast : Year.least ≤ year) (hendless : year ≤ Year.endless) :
    (∃ cs, z.candidates year save = .ok cs) ↔
      ∀ s ∈ z.spans, ¬ s.Obstructs policies year := by
  obtain ⟨bounds, hbounds, hlt⟩ := exists_yearBounds hleast hendless
  rw [exists_candidates_iff_collect hbounds hlt hcover, collect_eq_ok]
  constructor
  · rintro hall s hs ⟨bounds', hbounds', hactive, hcause⟩
    rw [hbounds] at hbounds'
    cases hbounds'
    obtain ⟨era, hera⟩ := hspans s hs
    obtain ⟨index, hmem⟩ := exists_mem_zipIdx.2 hs
    obtain ⟨a, ha, hpending⟩ :=
      hall (s, index) (List.mem_filter.2 ⟨hmem, hactive⟩)
    have hspan : a.span.IsOf policies era := by
      rw [span_of_activate ha]
      exact hera
    rcases hcause with hstarts | hlacks
    · exact (activate_eq_ok hera).1 ⟨a, ha⟩ hstarts
    · rw [hera.era_eq] at hlacks
      exact (pending_eq_ok hdates hspan).1 hpending hlacks
  · rintro hall ⟨s, index⟩ hp
    obtain ⟨hmem, hactive⟩ := List.mem_filter.1 hp
    have hs : s ∈ z.spans := exists_mem_zipIdx.1 ⟨index, hmem⟩
    have hnot := hall s hs
    obtain ⟨era, hera⟩ := hspans s hs
    obtain ⟨a, ha⟩ := (activate_eq_ok hera).2 fun hstarts =>
      hnot ⟨bounds, hbounds, hactive, .inl hstarts⟩
    have hspan : a.span.IsOf policies era := by
      rw [span_of_activate ha]
      exact hera
    refine ⟨a, ha, (pending_eq_ok hdates hspan).2 fun hlacks => hnot ?_⟩
    rw [← hera.era_eq] at hlacks
    exact ⟨bounds, hbounds, hactive, .inr hlacks⟩

end OneYear

/-- The saving at the start of a replay is looked up in a span that is in force
there, if the spans cover all time. -/
theorem exists_initialSave_eq {z : ZoneReplay} {year : Int} {date : Date}
    (hdate : Date.ofParts? year 1 1 = some date)
    (hcover : ∀ instant, ∃ s ∈ z.spans, s.contains instant) :
    ∃ s ∈ z.spans, z.initialSave year = s.saveBefore z.zone ⟨date, 1⟩ := by
  unfold ZoneReplay.initialSave
  rw [hdate]
  dsimp only
  cases hfind : z.spans.find? fun span => span.contains (date.unixSeconds 0) with
  | none =>
    obtain ⟨s, hs, hcontains⟩ := hcover (date.unixSeconds 0)
    exact absurd hcontains (List.find?_eq_none.1 hfind s hs)
  | some s => exact ⟨s, List.mem_of_find?_eq_some hfind, rfl⟩

/-! ## Zones -/

inductive Obstacle (policies : Policies) (w : Window) (zone : String)
    (eras : List Era) : Prop where
  /-- An era ends on the wall clock before any rule takes effect. -/
  | atEnd {era : Era} : era ∈ eras → era.EndsBeforeRules policies →
    Obstacle policies w zone eras
  /-- A span cannot be replayed in a year. -/
  | inYear {l : List Span} {s : Span} {year : Int} :
    spans zone policies eras = .ok l → s ∈ l → w.start - 1 ≤ year →
    year ≤ w.stop → s.Obstructs policies year →
    Obstacle policies w zone eras

section Zone

variable {policies : Policies} {zone : String} {eras : List Era} {w : Window}
  {l : List Span} {e : BufferError} (h : Measurable policies eras)

include h

theorem spans_of_measurable (hl : spans zone policies eras = .ok l) :
    (∀ s ∈ l, (∃ era ∈ eras, s.IsOf policies era) ∧
      ∀ time, s.localStart = some time → Year.least ≤ time.date.year) ∧
    ∀ instant, ∃ s ∈ l, s.contains instant := by
  constructor
  · exact isOf_of_spansFrom h (List.Subset.refl eras)
      (fun _ hnone => absurd hnone (Option.some_ne_none _).symm) hl
  · exact fun instant => (h.eraSpans hl).coverFrom instant nofun

theorem exists_initialSave (hl : spans zone policies eras = .ok l) {year : Int}
    (hleast : Year.least ≤ year) (hnever : year ≤ Year.never) :
    ∃ save, (⟨zone, l⟩ : ZoneReplay).initialSave year = .ok save := by
  obtain ⟨hspans, hcover⟩ := spans_of_measurable h hl
  obtain ⟨date, hdate, hyear, hmonth, hday⟩ := Date.exists_first hleast hnever
  obtain ⟨s, hs, heq⟩ :=
    exists_initialSave_eq (z := ⟨zone, l⟩) hdate hcover
  obtain ⟨⟨era, hera, hof⟩, _⟩ := hspans s hs
  rw [heq]
  refine (hof.saveBefore_eq_ok zone ⟨date, 1⟩).2 fun hlacks => ?_
  apply not_first_lt_of_lacksRuleBefore h hera hlacks
  by_cases hfirst : year = Year.least
  · right
    refine ⟨Date.ext_iff.2 ⟨?_, hmonth.symm, hday.symm⟩, Int.zero_lt_one⟩
    rw [hyear, hfirst]
    rfl
  · apply LocalTime.first_lt_of_year
    dsimp only
    omega

theorem exists_window_eq (hl : spans zone policies eras = .ok l)
    (hlt : w.start < w.stop) (hleast : Year.least < w.start)
    (hstop : w.stop ≤ Year.endless) :
    ∃ save, (⟨zone, l⟩ : ZoneReplay).window w =
      (⟨zone, l⟩ : ZoneReplay).years [] save (w.start - 1)
        (w.stop + 1 - (w.start - 1)).toNat := by
  have hend : Year.endless ≤ Year.never := by decide
  obtain ⟨save, hsave⟩ :=
    exists_initialSave h hl (by omega : Year.least ≤ w.start - 1) (by omega)
  refine ⟨save, ?_⟩
  unfold ZoneReplay.window
  rw [hsave]

/-- A replay stops only because a span starts on the first day of all, or
because a rule has no date. -/
theorem fault_window_eq_some (hl : spans zone policies eras = .ok l)
    (hlt : w.start < w.stop) (hleast : Year.least < w.start)
    (hstop : w.stop ≤ Year.endless)
    (he : ((⟨zone, l⟩ : ZoneReplay).window w).fault = some e) :
    (∃ policy, e = .noPriorRule zone policy Year.least) ∨
      ∃ policy year, e = .invalidRuleDate policy year := by
  obtain ⟨hspans, hcover⟩ := spans_of_measurable h hl
  obtain ⟨save, hwindow⟩ := exists_window_eq h hl hlt hleast hstop
  rw [hwindow] at he
  obtain ⟨year, before, hfirst, hlast, he⟩ :=
    ZoneReplay.exists_of_fault_years he
  rcases candidates_eq_error
      (fun s hs => (hspans s hs).1.imp fun _ hera => hera.2) hcover
      (by omega) (by omega) he with
    ⟨s, hs, time, policy, htime, hlacks, rfl⟩ | ⟨policy, rfl⟩
  · left
    obtain ⟨⟨era, hera, hof⟩, hstart⟩ := hspans s hs
    rw [hof.era_eq] at hlacks
    have hnot := not_first_lt_of_lacksRuleBefore h hera hlacks
    have hyear : time.date.year = Year.least := by
      have hle := hstart time htime
      by_contra hne
      exact hnot (LocalTime.first_lt_of_year
        (by unfold LocalTime.nextSecond; dsimp only; omega))
    exact ⟨policy, by rw [hyear]⟩
  · exact .inr ⟨policy, year, rfl⟩

theorem error_of_measureZone (hlt : w.start < w.stop)
    (hleast : Year.least < w.start) (hstop : w.stop ≤ Year.endless)
    (he : (measureZone policies w zone eras).result = .error e) :
    (∃ policy, e = .noPriorRule zone policy Year.least) ∨
      ∃ policy year, e = .invalidRuleDate policy year := by
  rcases measureZone_eq_error he with he | ⟨l, hl, he⟩
  · exact .inl (spansFrom_eq_error h (List.Subset.refl eras) he)
  · exact fault_window_eq_some h hl hlt hleast hstop he

variable (hdates : Datable policies)

include hdates

theorem fault_window_eq_none_iff (hl : spans zone policies eras = .ok l)
    (hlt : w.start < w.stop) (hleast : Year.least < w.start)
    (hstop : w.stop ≤ Year.endless) :
    ((⟨zone, l⟩ : ZoneReplay).window w).fault = none ↔
      ∀ year, w.start - 1 ≤ year → year ≤ w.stop →
        ∀ s ∈ l, ¬ s.Obstructs policies year := by
  obtain ⟨hspans, hcover⟩ := spans_of_measurable h hl
  obtain ⟨save, hwindow⟩ := exists_window_eq h hl hlt hleast hstop
  rw [hwindow, ZoneReplay.fault_years_eq_none_iff fun year hfirst hlast save =>
    exists_candidates_iff
      (fun s hs => (hspans s hs).1.imp fun _ hera => hera.2) hdates hcover
      (by omega) (by omega)]
  constructor
  · exact fun hall year hfirst hlast => hall year hfirst (by omega)
  · exact fun hall year hfirst hlast => hall year hfirst (by omega)

theorem exists_measureZone_iff (hlt : w.start < w.stop)
    (hleast : Year.least < w.start) (hstop : w.stop ≤ Year.endless) :
    (∃ size, (measureZone policies w zone eras).result = .ok size) ↔
      ¬ Obstacle policies w zone eras := by
  have hends : (∃ l, spans zone policies eras = .ok l) ↔
      ∀ era ∈ eras, ¬ era.EndsBeforeRules policies :=
    spansFrom_eq_ok h (List.Subset.refl eras)
  constructor
  · rintro ⟨size, hsize⟩ hobstacle
    obtain ⟨l, hl, hfault, _⟩ := measureZone_eq_ok.1 hsize
    cases hobstacle with
    | atEnd hera hbad => exact hends.1 ⟨l, hl⟩ _ hera hbad
    | inYear hl' hs hfirst hlast hbad =>
      rw [hl] at hl'
      cases hl'
      exact (fault_window_eq_none_iff h hdates hl hlt hleast hstop).1 hfault _
        hfirst hlast _ hs hbad
  · intro hnot
    obtain ⟨l, hl⟩ := hends.2 fun era hera hbad => hnot (.atEnd hera hbad)
    have hfault := (fault_window_eq_none_iff h hdates hl hlt hleast hstop).2
      fun year hfirst hlast s hs hbad =>
        hnot (.inYear hl hs hfirst hlast hbad)
    exact ⟨_, measureZone_eq_ok.2 ⟨l, hl, hfault, rfl⟩⟩

end Zone

/-! ## Databases -/

/-- The buffers of a made database can be measured over its window if nothing
stands in the way of any zone.  If they cannot, a rule before the first day of
all or the date of a rule is missing. -/
theorem MadeFrom.exists_bufferSizes_iff {o : Options} {texts : List SourceText}
    {db : Database} (h : MadeFrom o texts db) :
    ((∃ sizes, (db.bufferSizes db.window).result = .ok sizes) ↔
      ∀ zone eras, db.zones.get? zone = some eras →
        ¬ Obstacle db.policies db.window zone eras) ∧
    ∀ e, (db.bufferSizes db.window).result = .error e →
      (∃ zone policy, e = .noPriorRule zone policy Year.least) ∨
        ∃ policy year, e = .invalidRuleDate policy year := by
  obtain ⟨s, hmade, _⟩ := h.exists_source
  obtain ⟨hlt, hleast, hstop⟩ := hmade.window_usable
  constructor
  · rw [Database.exists_bufferSizes hlt hleast hstop]
    exact forall₃_congr fun zone eras hzone =>
      exists_measureZone_iff (hmade.measurable hzone) hmade.datable hlt hleast
        hstop
  · intro e he
    obtain ⟨zone, eras, hzone, he⟩ :=
      Database.exists_zone_of_bufferSizes_eq_error hlt hleast hstop he
    rcases error_of_measureZone (hmade.measurable hzone) hlt hleast hstop he with
      ⟨policy, rfl⟩ | hdate
    · exact .inl ⟨zone, policy, rfl⟩
    · exact .inr hdate

theorem exists_bufferSizes_iff_oneRuleText :
    ∃ db, MadeFrom twoYears [oneRuleText] db ∧
      ((∃ sizes, (db.bufferSizes db.window).result = .ok sizes) ↔
        ∀ zone eras, db.zones.get? zone = some eras →
          ¬ Obstacle db.policies db.window zone eras) ∧
      ∀ e, (db.bufferSizes db.window).result = .error e →
        (∃ zone policy, e = .noPriorRule zone policy Year.least) ∨
          ∃ policy year, e = .invalidRuleDate policy year := by
  have hrun : (Source.empty.readTexts [] [oneRuleText]).fault = none ∧
      ∃ db ∈ (Database.ofSource twoYears
        (Source.empty.readTexts [] [oneRuleText]).source).result.toOption,
        True := by
    decide +kernel
  obtain ⟨hread, hmade⟩ := hrun
  obtain ⟨db, hdb, _⟩ := exists_eq_ok_of_toOption hmade
  exact ⟨db, ⟨hread, hdb⟩, MadeFrom.exists_bufferSizes_iff ⟨hread, hdb⟩⟩

/-- A rule for the first Sunday from 29 February on. -/
def leapDayText : SourceText :=
  ⟨"t", "R P 2000 ma - Feb Sun>=29 0 1 D\nZ Z 0 P E%s\n"⟩

/-- Such a rule is kept, though 2001 has no 29 February. -/
theorem bufferSizes_leapDayText :
    ∃ db, MadeFrom twoYears [leapDayText] db ∧
      (db.bufferSizes db.window).result = .error (.invalidRuleDate "P" 2001) := by
  have hrun : (Source.empty.readTexts [] [leapDayText]).fault = none ∧
      ∃ db ∈ (Database.ofSource twoYears
        (Source.empty.readTexts [] [leapDayText]).source).result.toOption,
        (db.bufferSizes db.window).result =
          .error (.invalidRuleDate "P" 2001) := by
    decide +kernel
  obtain ⟨hread, hmade⟩ := hrun
  obtain ⟨db, hdb, hsizes⟩ := exists_eq_ok_of_toOption hmade
  exact ⟨db, ⟨hread, hdb⟩, hsizes⟩

end ZoneTables
