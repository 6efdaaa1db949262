import ZoneTables.Proofs.Buffer.Acceptance

/-!
# Replays always have an era

An end is converted with the offset of its own era, so that a span can stop
before it starts, and the spans of a zone can overlap.  Time is covered
nonetheless, whatever the policies and the ends are: an instant is in the first
span that it does not lie behind, and the last span does not stop.  So a replay
never comes to a year in which nothing is in force.
-/

namespace ZoneTables

namespace ZoneReplay

variable {z : ZoneReplay} {w : Window} {year save : Int} {e : BufferError}
  (hcover : ∀ instant, ∃ s ∈ z.spans, s.contains instant)

include hcover

theorem eq_noPriorRule_of_initialSave (hleast : Year.least ≤ year)
    (hnever : year ≤ Year.never) (he : z.initialSave year = .error e) :
    ∃ policy year, e = .noPriorRule z.zone policy year := by
  obtain ⟨date, hdate, _⟩ := Date.exists_first hleast hnever
  obtain ⟨s, _, heq⟩ := exists_initialSave_eq hdate hcover
  rw [heq] at he
  obtain ⟨policy, rfl⟩ := Span.eq_noPriorRule_of_saveBefore he
  exact ⟨policy, _, rfl⟩

theorem cause_of_candidates_eq_error (hleast : Year.least ≤ year)
    (hendless : year ≤ Year.endless) (he : z.candidates year save = .error e) :
    (∃ policy year, e = .noPriorRule z.zone policy year) ∨
      ∃ policy, e = .invalidRuleDate policy year := by
  obtain ⟨bounds, hbounds, hlt⟩ := exists_yearBounds hleast hendless
  obtain ⟨p, _, hactivate | ⟨a, hpending⟩⟩ :=
    collect_eq_error (collect_eq_error_of_candidates hbounds hlt hcover he)
  · obtain ⟨_, _, he⟩ := exists_saveBefore_of_activate hactivate
    obtain ⟨policy, rfl⟩ := Span.eq_noPriorRule_of_saveBefore he
    exact .inl ⟨policy, _, rfl⟩
  · exact .inr (pending_eq_error hpending)

/-- If its spans cover all time, a replay over ordinary years stops only
because a rule or the date of one is missing. -/
theorem cause_of_fault_window (hlt : w.start < w.stop)
    (hleast : Year.least < w.start) (hstop : w.stop ≤ Year.endless)
    (he : (z.window w).fault = some e) :
    (∃ policy year, e = .noPriorRule z.zone policy year) ∨
      ∃ policy year, e = .invalidRuleDate policy year := by
  have hend : Year.endless ≤ Year.never := by decide
  unfold window at he
  cases hsave : z.initialSave (w.start - 1) with
  | error e' =>
    rw [hsave] at he
    cases he
    exact .inl (eq_noPriorRule_of_initialSave hcover (by omega) (by omega) hsave)
  | ok save =>
    rw [hsave] at he
    obtain ⟨year, before, hfirst, hlast, he⟩ := exists_of_fault_years he
    rcases cause_of_candidates_eq_error hcover (by omega) (by omega) he with
      hrule | ⟨policy, heq⟩
    · exact .inl hrule
    · exact .inr ⟨policy, year, heq⟩

end ZoneReplay

/-- Some era of a zone of which the last does not end is always in force, also
if eras end before they start, and whatever policies they refer to.  So a replay
over any window that sizes are found for has an era in every year. -/
theorem spans_cover_all_time {policies : Policies} {zone : String}
    {eras : List Era} {last : Era} {l : List Span}
    (hlast : eras.getLast? = some last) (hends : last.ends.isEndless = true)
    (hl : spans zone policies eras = .ok l) :
    (∀ instant, ∃ s ∈ l, s.contains instant) ∧
      ∀ w : Window, (w.isEmpty || !w.isInRange) = false → ∀ name year,
        ((⟨zone, l⟩ : ZoneReplay).window w).fault ≠
          some (.noActiveEra name year) := by
  have hcover : ∀ instant, ∃ s ∈ l, s.contains instant :=
    fun instant => coverFrom_of_spansFrom hlast hends hl instant nofun
  refine ⟨hcover, fun w hw name year he => ?_⟩
  obtain ⟨hlt, hleast, hstop⟩ := Window.usable_iff.1 hw
  rcases ZoneReplay.cause_of_fault_window (z := ⟨zone, l⟩) hcover hlt hleast
      hstop he with ⟨_, _, heq⟩ | ⟨_, _, heq⟩
  · cases heq
  · cases heq

/-- Eras half a day behind universal time, half a day ahead of it, and at it.
The second one stops 23 hours before it starts. -/
def swungEras : List Era :=
  [⟨-43200, .standard, "A", ⟨2000, 1, 1, 0, .wall⟩, ""⟩,
    ⟨43200, .standard, "B", ⟨2000, 1, 1, 3600, .wall⟩, ""⟩,
    ⟨0, .standard, "C", .endless, ""⟩]

theorem spans_cover_all_time_swungEras :
    ∃ l, spans "Z" .empty swungEras = .ok l ∧
      (l.map fun s => (s.start, s.stop)) =
        [(none, some 946728000), (some 946728000, some 946645200),
          (some 946645200, none)] ∧
      (∀ instant, ∃ s ∈ l, s.contains instant) ∧
      ∀ name year, ((⟨"Z", l⟩ : ZoneReplay).window ⟨2000, 2002⟩).fault ≠
        some (.noActiveEra name year) := by
  have hrun : ∃ l ∈ (spans "Z" .empty swungEras).toOption,
      (l.map fun s => (s.start, s.stop)) =
        [(none, some 946728000), (some 946728000, some 946645200),
          (some 946645200, none)] := by
    decide +kernel
  obtain ⟨l, hl, hends⟩ := exists_eq_ok_of_toOption hrun
  have hlast : swungEras.getLast? = some ⟨0, .standard, "C", .endless, ""⟩ := rfl
  obtain ⟨hcover, hwindow⟩ := spans_cover_all_time hlast rfl hl
  exact ⟨l, hl, hends, hcover, hwindow ⟨2000, 2002⟩ rfl⟩

end ZoneTables
