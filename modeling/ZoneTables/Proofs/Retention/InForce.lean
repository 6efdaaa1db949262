import ZoneTables.Proofs.Retention.Nesting

/-!
# Eras in force under a window

The era in force at a local time is the first one that ends after it.  If the
ends of eras come one after the other, a window finds the same era in force as
the whole zone does, from the year before it to the year after it.  The two
margins by which eras are cut off differ, but each leaves room enough: an era
that is cut off in front ends before these years, and one that is cut off at the
end starts behind them.
-/

namespace ZoneTables

def LocalTime.key (t : LocalTime) : Int ×ₗ (Nat ×ₗ (Nat ×ₗ Int)) :=
  toLex (t.date.year, toLex (t.date.month, toLex (t.date.day, t.seconds)))

namespace SourceEra

/-- The date and time of day at which an era ends, if there is such a day in
the year of its end. -/
def resolvedEnd? (w : Widths) (era : SourceEra) : Option Until :=
  (resolveUntil w false era.ends).kept?

def endsAfter (w : Widths) (t : LocalTime) (era : SourceEra) : Bool :=
  (era.resolvedEnd? w).any fun ends => decide (t.key < ends.key)

end SourceEra

def eraInForce? (w : Widths) (t : LocalTime) (eras : List SourceEra) :
    Option SourceEra :=
  eras.find? (·.endsAfter w t)

/-- Whether eras end one after the other, up to the last one, which has no
end. -/
structure EndsAscend (w : Widths) (eras : List SourceEra) : Prop where
  ascend : eras.Pairwise fun a b => ∃ ends ∈ a.resolvedEnd? w,
    ∃ ends' ∈ b.resolvedEnd? w, ends.key < ends'.key
  lastOpen : ∃ last ∈ eras.getLast?, last.ends = none

/-! ## Ends and years -/

namespace SourceEra

variable {w : Widths} {t : LocalTime} {era : SourceEra} {ends : Until}

theorem year_of_resolvedEnd? (h : era.resolvedEnd? w = some ends) :
    ends.year = era.endYear := by
  have hends := endsAs_of_resolveUntil (Review.kept?_eq_some.1 h)
  unfold SourceUntil.EndsAs at hends
  unfold endYear
  split at hends
  · rename_i hnone
    rw [hends, hnone]
    rfl
  · rename_i u hsome
    obtain ⟨_, _, _, rfl⟩ := hends
    rw [hsome]

theorem resolvedEnd?_of_open (h : era.ends = none) :
    era.resolvedEnd? w = some .endless := by
  unfold resolvedEnd?
  rw [h]
  rfl

theorem endsAfter_iff (h : era.resolvedEnd? w = some ends) :
    era.endsAfter w t ↔ t.key < ends.key := by
  unfold endsAfter
  rw [h, Option.any_some, decide_eq_true_eq]

theorem endsAfter_of_lt (h : era.resolvedEnd? w = some ends)
    (hlt : t.date.year < era.endYear) : era.endsAfter w t := by
  rw [endsAfter_iff h, LocalTime.key, Until.key, Prod.Lex.toLex_lt_toLex]
  rw [← year_of_resolvedEnd? h] at hlt
  exact .inl hlt

theorem le_endYear_of_endsAfter (h : era.endsAfter w t) :
    t.date.year ≤ era.endYear := by
  obtain ⟨ends, hends, hlt⟩ := (Option.any_eq_true _ _).1 h
  rw [decide_eq_true_eq, LocalTime.key, Until.key,
    Prod.Lex.toLex_lt_toLex] at hlt
  rw [← year_of_resolvedEnd? hends]
  rcases hlt with hlt | ⟨heq, _⟩
  · exact Int.le_of_lt hlt
  · exact Int.le_of_eq heq

theorem endYear_le_of_not_endsAfter (h : era.resolvedEnd? w = some ends)
    (hafter : ¬ era.endsAfter w t) : era.endYear ≤ t.date.year :=
  Int.not_lt.1 fun hlt => hafter (endsAfter_of_lt h hlt)

end SourceEra

namespace EndsAscend

variable {w : Widths} {eras : List SourceEra}

theorem exists_append (h : EndsAscend w eras) :
    ∃ front last, eras = front ++ [last] ∧ last.ends = none := by
  obtain ⟨last, hlast, hopen⟩ := h.lastOpen
  obtain ⟨front, hfront⟩ := List.getLast?_eq_some_iff.1 hlast
  exact ⟨front, last, hfront, hopen⟩

/-- All eras end at dates, because each is compared with the last one. -/
theorem exists_resolvedEnd? (h : EndsAscend w eras) :
    ∀ era ∈ eras, ∃ ends, era.resolvedEnd? w = some ends := by
  obtain ⟨front, last, rfl, hopen⟩ := h.exists_append
  intro era hera
  rcases List.mem_append.1 hera with hera | hera
  · have hbefore := (List.pairwise_append.1 h.ascend).2.2 era hera last
      List.mem_cons_self
    obtain ⟨ends, hends, _⟩ := hbefore
    exact ⟨ends, hends⟩
  · rw [List.mem_singleton.1 hera]
    exact ⟨.endless, SourceEra.resolvedEnd?_of_open hopen⟩

theorem yearsAscend (h : EndsAscend w eras) : YearsAscend none eras where
  ends := by
    refine h.ascend.imp fun {a b} hab => ?_
    obtain ⟨ends, hends, ends', hends', hlt⟩ := hab
    rw [← SourceEra.year_of_resolvedEnd? hends,
      ← SourceEra.year_of_resolvedEnd? hends']
    exact Until.year_le_of_key_lt hlt
  start := nofun

theorem endYear_le_never (h : EndsAscend w eras) :
    ∀ era ∈ eras, era.endYear ≤ Year.never := by
  have hyears := h.yearsAscend
  obtain ⟨front, last, rfl, hopen⟩ := h.exists_append
  intro era hera
  rw [← endYear_of_ends_eq_none hopen]
  rcases List.mem_append.1 hera with hera | hera
  · exact (List.pairwise_append.1 hyears.ends).2.2 era hera last
      List.mem_cons_self
  · rw [List.mem_singleton.1 hera]

end EndsAscend

/-! ## What a window finds in force -/

section Window

variable {window : Window} {w : Widths} {t : LocalTime}
  {startYear : Option Int} {eras : List SourceEra}

/-- An era in force in the years around a window is kept.  The eras before it do
not end after the local time, so that it starts early enough. -/
theorem find?_keptFrom
    (hends : ∀ era ∈ eras, ∃ ends, era.resolvedEnd? w = some ends)
    (hfirst : window.start - 1 ≤ t.date.year)
    (hlast : t.date.year ≤ window.stop + 1)
    (hstart : ∀ year, startYear = some year → year ≤ window.stop + 1) :
    (keptFrom window startYear eras).find? (·.endsAfter w t) =
      eras.find? (·.endsAfter w t) := by
  induction eras generalizing startYear with
  | nil => rfl
  | cons era eras ih =>
    rw [List.forall_mem_cons] at hends
    obtain ⟨⟨ends, hera⟩, hrest⟩ := hends
    by_cases hafter : era.endsAfter w t
    · have hyear := SourceEra.le_endYear_of_endsAfter hafter
      rw [keptFrom_cons_of_le hstart (by omega),
        List.find?_cons_of_pos hafter, List.find?_cons_of_pos hafter]
    · have hyear := SourceEra.endYear_le_of_not_endsAfter hera hafter
      have hnext : ∀ year, some era.endYear = some year →
          year ≤ window.stop + 1 := by
        rintro _ ⟨rfl⟩
        omega
      rw [List.find?_cons_of_neg hafter, ← ih hrest hnext]
      by_cases hold : era.endYear < window.start - 1
      · rw [keptFrom_cons_of_lt hold]
      · rw [keptFrom_cons_of_le hstart (by omega),
          List.find?_cons_of_neg hafter]

theorem place_of_findIdx?
    (hends : ∀ era ∈ eras, ∃ ends, era.resolvedEnd? w = some ends)
    (hfirst : window.start - 1 ≤ t.date.year)
    (hlast : t.date.year ≤ window.stop + 1)
    (hstart : ∀ year, startYear = some year → year ≤ window.stop + 1)
    {index : Nat} {era : SourceEra} {place : EraPlace}
    (hplace : (erasWithPlace window startYear eras)[index]? = some (era, place))
    (hindex : eras.findIdx? (·.endsAfter w t) = some index) : place = .kept := by
  induction eras generalizing startYear index with
  | nil => cases hindex
  | cons first eras ih =>
    rw [List.forall_mem_cons] at hends
    obtain ⟨⟨ends, hends⟩, hrest⟩ := hends
    rw [List.findIdx?_cons] at hindex
    by_cases hafter : first.endsAfter w t
    · have hyear := SourceEra.le_endYear_of_endsAfter hafter
      rw [if_pos hafter, Option.some.injEq] at hindex
      subst hindex
      have hnew : (startYear.any fun year => window.stop + 1 < year) = false := by
        cases startYear with
        | none => rfl
        | some year => simpa using hstart year rfl
      cases hplace
      unfold SourceEra.place
      rw [hnew, if_neg (by omega)]
      rfl
    · have hyear := SourceEra.endYear_le_of_not_endsAfter hends hafter
      rw [if_neg hafter, Option.map_eq_some_iff] at hindex
      obtain ⟨index, hindex, rfl⟩ := hindex
      have hnext : ∀ year, some first.endYear = some year →
          year ≤ window.stop + 1 := by
        rintro _ ⟨rfl⟩
        omega
      exact ih hrest hnext hplace hindex

theorem EndsAscend.rel_eraInForce?_kept (h : EndsAscend w eras)
    (hwindow : window.start ≤ window.stop)
    (hfirst : window.start - 1 ≤ t.date.year)
    (hlast : t.date.year ≤ window.stop + 1) :
    Option.Rel (fun kept era => kept = era ∨ kept = { era with ends := none })
      (eraInForce? w t (TrimmedZone.of window eras).kept)
      (eraInForce? w t eras) := by
  have hfind : (keptFrom window none eras).find? (·.endsAfter w t) =
      eras.find? (·.endsAfter w t) :=
    find?_keptFrom h.exists_resolvedEnd? hfirst hlast nofun
  unfold eraInForce?
  rcases h.yearsAscend.kept_eq hwindow with
    heq | ⟨front, last, hkept, hlate, heq⟩
  · rw [heq, hfind]
    cases eras.find? (·.endsAfter w t) with
    | none => exact .none
    | some era => exact .some (.inl rfl)
  · have hmem : last ∈ eras := by
      apply (keptFrom_sublist window none eras).subset
      rw [hkept]
      exact List.mem_append_right _ List.mem_cons_self
    obtain ⟨ends, hends⟩ := h.exists_resolvedEnd? last hmem
    have hnever := h.endYear_le_never last hmem
    have hafter : last.endsAfter w t :=
      SourceEra.endsAfter_of_lt hends (by omega)
    have hafter' : ({ last with ends := none } : SourceEra).endsAfter w t := by
      refine SourceEra.endsAfter_of_lt (SourceEra.resolvedEnd?_of_open rfl) ?_
      rw [endYear_of_ends_eq_none rfl]
      omega
    rw [heq, ← hfind, hkept, List.find?_append, List.find?_append,
      List.find?_cons_of_pos hafter, List.find?_cons_of_pos hafter']
    cases front.find? (·.endsAfter w t) with
    | none => exact .some (.inr rfl)
    | some era => exact .some (.inl rfl)

/-- A window keeps a zone whose eras end one after the other, up to one without
an end.  From the year before the window to the year after it, the era in force
is the same in what is kept as in the whole zone, perhaps without its end, and
so no era that is cut off is in force there.  Some era is in force at all times
before the year in which open eras are taken to end. -/
theorem TrimmedZone.eraInForce?_kept (h : EndsAscend w eras)
    (hwindow : window.start ≤ window.stop)
    (hstop : window.stop ≤ Year.endless) :
    ((TrimmedZone.of window eras).review window).result =
        .ok (TrimmedZone.of window eras).kept ∧
      ∀ t : LocalTime, window.start - 1 ≤ t.date.year →
        t.date.year ≤ window.stop + 1 →
        Option.Rel
          (fun kept era => kept = era ∨ kept = { era with ends := none })
          (eraInForce? w t (TrimmedZone.of window eras).kept)
          (eraInForce? w t eras) ∧
        (∀ index era place,
          (erasWithPlace window none eras)[index]? = some (era, place) →
          place ≠ .kept →
          eras.findIdx? (·.endsAfter w t) ≠ some index) ∧
        (t.date.year < Year.never → (eraInForce? w t eras).isSome) := by
  obtain ⟨front, last, heq, hopen⟩ := h.exists_append
  have hkept : (TrimmedZone.of window eras).kept ≠ [] := by
    have hne : keptFrom window none eras ≠ [] := by
      rw [heq]
      exact keptFrom_ne_nil front hopen hwindow hstop nofun
    rcases h.yearsAscend.kept_eq hwindow with hsame | ⟨_, _, _, _, hsame⟩
    · rw [hsame]
      exact hne
    · rw [hsame]
      exact List.append_ne_nil_of_right_ne_nil _ (List.cons_ne_nil _ _)
  refine ⟨review_eq_ok.2 ⟨hkept, rfl⟩, fun t hfirst hlast =>
    ⟨h.rel_eraInForce?_kept hwindow hfirst hlast, ?_, fun hyear => ?_⟩⟩
  · intro index era place hplace hcut hindex
    apply hcut
    refine place_of_findIdx? h.exists_resolvedEnd? hfirst hlast ?_ hplace hindex
    exact nofun
  · have hlastAfter : last.endsAfter w t := by
      refine SourceEra.endsAfter_of_lt
        (SourceEra.resolvedEnd?_of_open hopen) ?_
      rw [endYear_of_ends_eq_none hopen]
      exact hyear
    unfold eraInForce?
    rw [List.find?_isSome]
    refine ⟨last, ?_, hlastAfter⟩
    rw [heq]
    exact List.mem_append_right _ List.mem_cons_self

end Window

/-- A zone whose first era ends too early for the two years from 2000 on, and
whose last one starts too late for them. -/
def longLivedZone : List SourceEra :=
  let origin : SourceLine := ⟨"t", 1, ""⟩
  [⟨0, "-", "A", some ⟨1998, 12, .exact 31, 84600, .utc⟩, origin⟩,
    ⟨3600, "-", "B", some ⟨2001, 3, .last .sunday, 7200, .wall⟩, origin⟩,
    ⟨7200, "-", "C", some ⟨2050, 1, .exact 1, 0, .wall⟩, origin⟩,
    ⟨3600, "-", "D", none, origin⟩]

theorem eraInForce?_kept_longLivedZone :
    let window : Window := ⟨2000, 2002⟩
    let widths := Scope.complete.widths
    let zone := TrimmedZone.of window longLivedZone
    EndsAscend widths longLivedZone ∧
      (erasWithPlace window none longLivedZone).map Prod.snd =
        [.tooOld, .kept, .kept, .tooNew] ∧
      (zone.review window).result = .ok zone.kept ∧
      ∀ t : LocalTime, 1999 ≤ t.date.year → t.date.year ≤ 2003 →
        Option.Rel
          (fun kept era => kept = era ∨ kept = { era with ends := none })
          (eraInForce? widths t zone.kept)
          (eraInForce? widths t longLivedZone) ∧
        longLivedZone.findIdx? (·.endsAfter widths t) ≠ some 0 ∧
        longLivedZone.findIdx? (·.endsAfter widths t) ≠ some 3 ∧
        (eraInForce? widths t longLivedZone).isSome := by
  have hascend : EndsAscend Scope.complete.widths longLivedZone :=
    ⟨by decide +kernel, by decide +kernel⟩
  have hwindow : (⟨2000, 2002⟩ : Window).start ≤ 2002 := by decide
  have hkept := TrimmedZone.eraInForce?_kept hascend hwindow (by decide)
  refine ⟨hascend, by decide +kernel, hkept.1, fun t hfirst hlast => ?_⟩
  obtain ⟨hsame, hcut, hsome⟩ := hkept.2 t hfirst hlast
  have hnever : (2003 : Int) < Year.never := by decide
  exact ⟨hsame, hcut 0 _ .tooOld rfl nofun, hcut 3 _ .tooNew rfl nofun,
    hsome (by omega)⟩

end ZoneTables
