import ZoneTables.Proofs.Buffer.Alike
import ZoneTables.Proofs.Retention.Covering
import ZoneTables.Proofs.Retention.Trimming

/-!
# Eras that are kept under two windows

The spans of the eras that a narrow window keeps are alike to spans under a
wider window as far as the replay goes, if the ends of the eras cannot be told
apart.  A year of the narrow window that is one of an era is one of the same
era, or of one that saves alike, under the wider window.
-/

namespace ZoneTables

/-! ## Spans of eras that are kept by both -/

def Stretch.Separates (seen : Stretch) (t t' : Int) : Prop :=
  ∃ instant, seen.Has instant ∧
    ((t ≤ instant ∧ instant < t') ∨ (t' ≤ instant ∧ instant < t))

theorem Stretch.le_iff_of_not_separates {seen : Stretch} {t t' instant : Int}
    (h : ¬ seen.Separates t t') (hin : seen.Has instant) :
    t ≤ instant ↔ t' ≤ instant := by
  constructor
  · intro hle
    by_contra hlt
    exact h ⟨instant, hin, .inl ⟨hle, by omega⟩⟩
  · intro hle
    by_contra hlt
    exact h ⟨instant, hin, .inr ⟨hle, by omega⟩⟩

section Spans

variable {policies policies' : Policies} {start start' : Option Int}
  {localStart localStart' : Option LocalTime} {eras : List Era} {l : List Span}
  {w : Window} {seen : Stretch}

theorem EraSpans.exists_append {old : List Era}
    (hold : ∀ era ∈ old, era.ends.isEndless = false) :
    ∀ {start localStart l},
      EraSpans policies start localStart (old ++ eras) l →
      ∃ front back start' localStart', l = front ++ back ∧
        (∀ s ∈ front, s.era ∈ old ∧ s.stop.isSome) ∧
        EraSpans policies start' localStart' eras back ∧
        (start' = start ∨ ∃ s ∈ front, s.stop = start') := by
  induction old with
  | nil =>
    intro start localStart l h
    exact ⟨[], l, start, localStart, rfl, by simp, h, .inl rfl⟩
  | cons era old ih =>
    intro start localStart l h
    rw [List.forall_mem_cons] at hold
    rw [List.cons_append] at h
    generalize htail : old ++ eras = tail at h
    cases h with
    | last hends _ =>
      rw [hold.1] at hends
      cases hends
    | cons _ _ _ hrest =>
      subst htail
      obtain ⟨front, back, start', localStart', rfl, hmem, hback, hstart⟩ :=
        ih hold.2 hrest
      refine ⟨_ :: front, back, start', localStart', rfl, ?_, hback, .inr ?_⟩
      · rw [List.forall_mem_cons]
        exact ⟨⟨List.mem_cons_self, rfl⟩,
          fun s hs => ⟨List.mem_cons_of_mem _ (hmem s hs).1, (hmem s hs).2⟩⟩
      · rcases hstart with rfl | ⟨s, hs, hstop⟩
        · exact ⟨_, List.mem_cons_self, rfl⟩
        · exact ⟨s, List.mem_cons_of_mem _ hs, hstop⟩

/-- Whether eras that end behind the years that matter to a window end behind a
stretch. -/
def EndsLate (policies : Policies) (w : Window) (seen : Stretch)
    (eras : List Era) : Prop :=
  ∀ era ∈ eras, w.stop + 1 < era.ends.year → ∀ time offset,
    era.EndsAt policies time offset → seen.stop ≤ time.unixSeconds - offset

theorem EraSpans.start_late {t : Int} (hlate : EndsLate policies w seen eras)
    (hyears : ∀ era ∈ eras, w.stop + 1 < era.ends.year)
    (h : EraSpans policies (some t) localStart eras l) (ht : seen.stop ≤ t) :
    ∀ s ∈ l, ∀ instant, seen.Has instant → ¬ s.startsBy instant := by
  have hnot : ∀ {s : Span} {t : Int}, s.start = some t → seen.stop ≤ t →
      ∀ instant, seen.Has instant → ¬ s.startsBy instant := by
    intro s t hstart hle instant hin hby
    have := Span.startsBy_iff.1 hby t hstart
    have := hin.2
    omega
  generalize hfirst : some t = first at h
  induction h generalizing t with
  | last _ _ =>
    simp only [List.forall_mem_singleton]
    exact hnot hfirst.symm ht
  | @cons _ _ era _ time offset stop eras l hends hstop _ _ ih =>
    unfold EndsLate at hlate
    rw [List.forall_mem_cons] at hlate hyears
    rw [List.forall_mem_cons]
    have hle := hlate.1 hyears.1 time offset hends
    exact ⟨hnot hfirst.symm ht, ih hlate.2 hyears.2 (by omega) rfl⟩

theorem EraSpans.of_outlasts {era : Era}
    (hlate : EndsLate policies w seen (era :: eras))
    (horder : (era :: eras).Pairwise fun a b => a.ends.year ≤ b.ends.year)
    (hout : era.Outlasts w)
    (h : EraSpans policies start localStart (era :: eras) l) :
    ∃ s rest, l = s :: rest ∧ s.IsOf policies era ∧ s.start = start ∧
      s.localStart = localStart ∧
      (∀ instant, seen.Has instant → s.stopsAfter instant) ∧
      ∀ s ∈ rest, ∀ instant, seen.Has instant → ¬ s.startsBy instant := by
  cases h with
  | last _ hof => exact ⟨_, [], rfl, hof, rfl, rfl, fun _ _ => rfl, by simp⟩
  | @cons _ _ _ _ time offset stop _ l hends hstop hof hrest =>
    have hyear : w.stop + 1 < era.ends.year := by
      rcases hout with hendless | hyear
      · rw [hends.ends] at hendless
        cases hendless
      · exact hyear
    have hafter := hlate era List.mem_cons_self hyear time offset hends
    refine ⟨_, l, rfl, hof, rfl, rfl, fun instant hin => ?_, ?_⟩
    · have := hin.2
      simp [Span.stopsAfter]
      omega
    · refine hrest.start_late (fun e he => hlate e (List.mem_cons_of_mem _ he))
        (fun e he => ?_) (by omega)
      exact Int.lt_of_lt_of_le hyear (List.rel_of_pairwise_cons horder he)

variable {eras' : List Era} {l' : List Span}

/-- Eras that are the same up to one that outlasts a window have spans that are
alike, if the ends of the common eras cannot be told apart. -/
theorem exists_common_of_alikeUpTo (h : AlikeUpTo w eras eras')
    (hlate : EndsLate policies w seen eras)
    (hlate' : EndsLate policies' w seen eras')
    (horder : eras.Pairwise fun a b => a.ends.year ≤ b.ends.year)
    (horder' : eras'.Pairwise fun a b => a.ends.year ≤ b.ends.year) :
    ∀ {start start' localStart localStart' l l'},
      EraSpans policies start localStart eras l →
      EraSpans policies' start' localStart' eras' l' →
      (∀ instant, seen.Has instant →
        (start.all fun t => decide (t ≤ instant)) =
          start'.all fun t => decide (t ≤ instant)) →
      (∀ t, start = some t → localStart = localStart') →
      (∀ s ∈ l, ∀ stop time offset', s.stop = some stop →
        s.era.EndsAt policies' time offset' →
        ¬ seen.Separates stop (time.unixSeconds - offset')) →
      ∃ common common' late late', l = common ++ late ∧ l' = common' ++ late' ∧
        List.Forall₂ (Span.Alike policies policies' seen) common common' ∧
        ∀ s ∈ late ++ late', ∀ instant, seen.Has instant →
          ¬ s.startsBy instant := by
  induction h with
  | @last a a' rest rest' hsame hout hout' =>
    intro start start' localStart localStart' l l' hl hl' hstart hlocal _
    -- both eras outlast the window, so all spans behind them start too late
    obtain ⟨s, late, rfl, hof, rfl, rfl, hstop, hrest⟩ :=
      hl.of_outlasts hlate horder hout
    obtain ⟨s', late', rfl, hof', rfl, rfl, hstop', hrest'⟩ :=
      hl'.of_outlasts hlate' horder' hout'
    obtain ⟨rfl⟩ := hof.era_eq
    obtain ⟨rfl⟩ := hof'.era_eq
    refine ⟨[s], [s'], late, late', rfl, rfl, .cons ?_ .nil, ?_⟩
    · refine ⟨hof, hof', ?_, ?_, hstart, fun instant hin => ?_, hlocal⟩
      · rw [hsame]
      · rw [hsame]
      · rw [hstop instant hin, hstop' instant hin]
    · simpa only [List.forall_mem_append] using ⟨hrest, hrest'⟩
  | @cons a rest rest' hends _ ih =>
    intro start start' localStart localStart' l l' hl hl' hstart hlocal hsep
    cases hl with
    | last hendless _ =>
      rw [hends] at hendless
      cases hendless
    | @cons _ _ _ policy time offset stop _ l hat hstop hof hl =>
      cases hl' with
      | last hendless _ =>
        rw [hends] at hendless
        cases hendless
      | @cons _ _ _ policy' time' offset' stop' _ l' hat' hstop' hof' hl' =>
        rw [List.forall_mem_cons] at hsep
        have htime : time = time' := by
          have hsame := hat.localTime
          rw [hat'.localTime] at hsame
          exact (Option.some.inj hsame).symm
        -- the spans may stop at different instants, with none that is seen between them
        have hboth : ∀ instant, seen.Has instant →
            (stop ≤ instant ↔ stop' ≤ instant) := by
          intro instant hin
          rw [hstop']
          exact Stretch.le_iff_of_not_separates
            (hsep.1 stop time' offset' rfl hat') hin
        obtain ⟨common, common', late, late', rfl, rfl, hcommon, hbehind⟩ :=
          ih (fun e he => hlate e (List.mem_cons_of_mem _ he))
            (fun e he => hlate' e (List.mem_cons_of_mem _ he)) horder.of_cons
            horder'.of_cons hl hl'
            (fun instant hin => by simp [hboth instant hin])
            (fun _ _ => by rw [htime]) hsep.2
        refine ⟨_ :: common, _ :: common', late, late', rfl, rfl,
          .cons ⟨hof, hof', rfl, rfl, hstart, fun instant hin => ?_, hlocal⟩
            hcommon, hbehind⟩
        have := hboth instant hin
        simp only [Span.stopsAfter, Option.all_some, decide_eq_decide]
        omega

end Spans

/-! ## Years of eras -/

/-- Whether a year is one of those of a span by the clock of its eras: not
before the one in which it starts nor after the one in which it ends. -/
def Span.HasYear (s : Span) (year : Int) : Prop :=
  (∀ time, s.localStart = some time → time.date.year ≤ year) ∧
    year ≤ s.era.ends.year

theorem Until.year_of_localTime? {u : Until} {time : LocalTime}
    (h : u.localTime? = some time) : time.date.year = u.year := by
  obtain ⟨date, hdate, rfl⟩ := Option.map_eq_some_iff.1 h
  exact (Date.ofParts?_eq_some_iff.1 hdate).1.1

section Years

variable {policies : Policies} {w w' : Window} {eras eras' : List Era}
  {l : List Span} {year : Int}

theorem EraSpans.exists_eraYears {start : Option Int}
    {localStart : Option LocalTime}
    (h : EraSpans policies start localStart eras l) {s : Span} (hs : s ∈ l)
    (hyear : s.HasYear year) (hlast : year ≤ w.stop) :
    ∀ {startYear : Int},
      (s.localStart = localStart → startYear ≤ year) →
      ∃ y, (s.era, y) ∈ eraYears w.stop startYear eras ∧ y.first ≤ year ∧
        year ≤ y.last := by
  have hfirst : ∀ {era : Era} {rest : List Era} {startYear : Int},
      year ≤ era.ends.year → startYear ≤ year →
      ∃ y, (era, y) ∈ eraYears w.stop startYear (era :: rest) ∧
        y.first ≤ year ∧ year ≤ y.last :=
    fun hends hstart => ⟨_, List.mem_cons_self, hstart, le_min hends hlast⟩
  induction h with
  | last _ _ =>
    intro startYear hstart
    rw [List.mem_singleton.1 hs] at hyear hstart ⊢
    exact hfirst hyear.2 (hstart rfl)
  | @cons start localStart era policy time offset stop eras l hends _ _ _ ih =>
    intro startYear hstart
    rcases List.mem_cons.1 hs with rfl | hs
    · exact hfirst hyear.2 (hstart rfl)
    · have hnext : s.localStart = some time → era.ends.year ≤ year := by
        intro hlocal
        rw [← Until.year_of_localTime? hends.localTime]
        exact hyear.1 time hlocal
      obtain ⟨y, hy, hown⟩ := ih hs hnext
      exact ⟨y, List.mem_cons_of_mem _ hy, hown⟩

theorem le_first_of_mem_eraYears {stop : Int} {era : Era} {y : EraYears}
    (horder : eras.Pairwise fun a b => a.ends.year ≤ b.ends.year) :
    ∀ {startYear}, (∀ era ∈ eras, startYear ≤ era.ends.year) →
      (era, y) ∈ eraYears stop startYear eras → startYear ≤ y.first := by
  induction eras with
  | nil => exact fun _ h => absurd h List.not_mem_nil
  | cons first rest ih =>
    intro startYear hle h
    rcases List.mem_cons.1 h with h | h
    · cases h
      exact Int.le_refl _
    · have hfirst := hle first List.mem_cons_self
      have hrest := ih horder.of_cons
        (fun e he => List.rel_of_pairwise_cons horder he) h
      omega

theorem AlikeUpTo.exists_eraYears (h : AlikeUpTo w eras eras')
    (horder : eras.Pairwise fun a b => a.ends.year ≤ b.ends.year)
    (hw : w.stop ≤ Year.endless) (hto : w.stop ≤ w'.stop) {era : Era}
    {y : EraYears} (hfirst : y.first ≤ year) (hlast : year ≤ y.last)
    (hstop : year ≤ w.stop) :
    ∀ {startYear startYear' : Int},
      (era, y) ∈ eraYears w.stop startYear eras → startYear' ≤ startYear →
      ∃ era' y', (era', y') ∈ eraYears w'.stop startYear' eras' ∧
        era'.saving = era.saving ∧ y'.first ≤ year ∧ year ≤ y'.last := by
  have hout : ∀ {a : Era}, a.Outlasts w → w.stop < a.ends.year := by
    intro a h
    rcases h with hendless | hyear
    · unfold Until.isEndless Year.never at hendless
      unfold Year.endless at hw
      rw [beq_iff_eq] at hendless
      omega
    · omega
  induction h with
  | @last a a' rest rest' hsame ha ha' =>
    intro startYear startYear' hmem hle
    have hlate := hout ha
    have hlate' := hout ha'
    rcases List.mem_cons.1 hmem with heq | hmem
    · cases heq
      refine ⟨a', _, List.mem_cons_self, ?_, Int.le_trans hle hfirst,
        le_min (by omega) (by omega)⟩
      rw [hsame]
    · -- what is behind an era that outlasts the window has no year in it
      have := le_first_of_mem_eraYears horder.of_cons
        (fun e he => List.rel_of_pairwise_cons horder he) hmem
      omega
  | @cons a rest rest' _ _ ih =>
    intro startYear startYear' hmem hle
    rcases List.mem_cons.1 hmem with heq | hmem
    · cases heq
      have hends := Int.le_trans hlast (min_le_left _ _)
      exact ⟨era, _, List.mem_cons_self, rfl, Int.le_trans hle hfirst,
        le_min hends (by omega)⟩
    · obtain ⟨era', y', hmem', hrest⟩ := ih horder.of_cons hmem (Int.le_refl _)
      exact ⟨era', y', List.mem_cons_of_mem _ hmem', hrest⟩

theorem exists_eraYears_append {stop bound : Int} {old : List Era}
    (hold : ∀ era ∈ old, era.ends.year ≤ bound) :
    ∀ {startYear : Int}, startYear ≤ bound →
      ∃ startYear' ≤ bound, ∀ {p}, p ∈ eraYears stop startYear' eras →
        p ∈ eraYears stop startYear (old ++ eras) := by
  induction old with
  | nil => exact fun hle => ⟨_, hle, id⟩
  | cons era old ih =>
    intro startYear _
    rw [List.forall_mem_cons] at hold
    obtain ⟨startYear', hle, hmem⟩ := ih hold.2 hold.1
    exact ⟨startYear', hle, fun hp => List.mem_cons_of_mem _ (hmem hp)⟩

end Years

end ZoneTables
