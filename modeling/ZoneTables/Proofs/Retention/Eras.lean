import ZoneTables.Calendar.Year
import ZoneTables.Proofs.Source.Reading
import ZoneTables.Retention.Eras

/-!
# The eras that are kept

The eras that a window leaves of a zone still follow each other up to one
without an end, and their fields are those of the source.
-/

namespace ZoneTables

theorem openLast_append (front : List SourceEra) (last : SourceEra) :
    openLast (front ++ [last]) = front ++ [{ last with ends := none }] := by
  induction front with
  | nil => rfl
  | cons era front ih =>
    cases front with
    | nil => rfl
    | cons era' front =>
      rw [List.cons_append, List.cons_append, openLast, ← List.cons_append, ih]
      · rfl
      · exact fun h => absurd (congrArg List.length h) (by simp)

theorem map_fst_erasWithPlace (window : Window) (eras : List SourceEra) :
    ∀ startYear, (erasWithPlace window startYear eras).map Prod.fst = eras := by
  induction eras with
  | nil => exact fun _ => rfl
  | cons era eras ih =>
    intro startYear
    rw [erasWithPlace, List.map_cons, ih]

namespace TrimmedZone

variable {window : Window} {eras : List SourceEra}

private def placed (window : Window) (eras : List SourceEra) :
    List SourceEra :=
  ((erasWithPlace window none eras).filter fun p => p.2 == .kept).map Prod.fst

private theorem kept_of (window : Window) (eras : List SourceEra) :
    (TrimmedZone.of window eras).kept = placed window eras ∨
      (TrimmedZone.of window eras).kept = openLast (placed window eras) := by
  unfold TrimmedZone.of placed
  dsimp only
  split
  · exact .inl rfl
  · exact .inr rfl

private theorem placed_sublist (window : Window) (eras : List SourceEra) :
    (placed window eras).Sublist eras := by
  have hsub : (placed window eras).Sublist
      ((erasWithPlace window none eras).map Prod.fst) :=
    List.filter_sublist.map Prod.fst
  rwa [map_fst_erasWithPlace] at hsub

theorem isProper_kept (h : ∀ era ∈ eras, era.IsProper) :
    ∀ era ∈ (TrimmedZone.of window eras).kept, era.IsProper := by
  have hplaced : ∀ era ∈ placed window eras, era.IsProper :=
    fun era hmem => h era ((placed_sublist window eras).subset hmem)
  rcases kept_of window eras with hkept | hkept
  · rw [hkept]
    exact hplaced
  · rw [hkept]
    rcases List.eq_nil_or_concat (placed window eras) with hnil | ⟨front, last, heq⟩
    · rw [hnil]
      exact fun _ hmem => absurd hmem List.not_mem_nil
    · rw [List.concat_eq_append] at heq
      rw [heq] at hplaced ⊢
      rw [openLast_append]
      intro era hmem
      rcases List.mem_append.1 hmem with hmem | hmem
      · exact hplaced era (List.mem_append_left _ hmem)
      · rw [List.mem_singleton.1 hmem]
        have hlast := hplaced last (List.mem_append_right _ List.mem_cons_self)
        exact ⟨hlast.stdOffset, nofun⟩

private theorem last_kept {front : List SourceEra} {last : SourceEra}
    (hlast : last.ends = none) (hstart : window.start ≤ Year.endless) :
    ∀ {startYear : Option Int},
      ((erasWithPlace window startYear (front ++ [last])).countP
        fun p => p.2 == .tooNew) = 0 →
      ∃ init, ((erasWithPlace window startYear (front ++ [last])).filter
        fun p => p.2 == .kept).map Prod.fst = init ++ [last] := by
  have hnever : ¬ Year.never < window.start - 1 := by
    unfold Year.never
    unfold Year.endless at hstart
    omega
  induction front with
  | nil =>
    intro startYear hnew
    have hplace : last.place window startYear = .kept := by
      have hend : last.endYear = Year.never := by
        unfold SourceEra.endYear
        rw [hlast]
      have hne : last.place window startYear ≠ .tooNew := by
        intro heq
        simp [erasWithPlace, heq] at hnew
      unfold SourceEra.place at hne ⊢
      rw [hend, if_neg hnever] at hne ⊢
      split
      · rename_i htrue
        rw [if_pos htrue] at hne
        exact absurd rfl hne
      · rfl
    exact ⟨[], by simp [erasWithPlace, hplace]⟩
  | cons era front ih =>
    intro startYear hnew
    rw [List.cons_append, erasWithPlace, List.countP_cons] at hnew
    obtain ⟨init, hinit⟩ := @ih (some era.endYear) (by omega)
    rw [List.cons_append, erasWithPlace, List.filter_cons]
    split
    · exact ⟨era :: init, by rw [List.map_cons, hinit]; rfl⟩
    · exact ⟨init, hinit⟩

theorem joined_kept (h : ErasJoined false eras)
    (hstart : window.start ≤ Year.endless)
    (hkept : (TrimmedZone.of window eras).kept ≠ []) :
    ErasJoined false (TrimmedZone.of window eras).kept := by
  obtain ⟨front, last, rfl, hfront, hlast⟩ := h
  have hlast' : last.ends = none := by
    rwa [Option.isSome_eq_false_iff, Option.isNone_iff_eq_none] at hlast
  have hsub := placed_sublist window (front ++ [last])
  unfold TrimmedZone.of at hkept ⊢
  dsimp only at hkept ⊢
  split
  · rename_i hnew
    obtain ⟨init, hinit⟩ := last_kept hlast' hstart hnew
    rw [hinit]
    refine ⟨init, last, rfl, fun era hmem => ?_, hlast⟩
    have hinit' : placed window (front ++ [last]) = init ++ [last] := hinit
    rw [hinit', List.append_sublist_append_right] at hsub
    exact hfront era (hsub.subset hmem)
  · rename_i hnew
    rw [if_neg hnew] at hkept
    rcases List.eq_nil_or_concat (placed window (front ++ [last])) with
      hnil | ⟨init, final, heq⟩
    · have hnil' : openLast (placed window (front ++ [last])) = [] := by
        rw [hnil]
        rfl
      exact absurd hnil' hkept
    · rw [List.concat_eq_append] at heq
      have hopen : openLast (placed window (front ++ [last])) =
          init ++ [{ final with ends := none }] := by
        rw [heq, openLast_append]
      have hjoined : ErasJoined false
          (openLast (placed window (front ++ [last]))) := by
        rw [hopen]
        refine ⟨init, _, rfl, fun era hmem => ?_, rfl⟩
        rw [heq] at hsub
        have hinit : init.Sublist front := by
          have htail := hsub.reverse.tail
          rwa [List.reverse_append, List.reverse_append, List.reverse_singleton,
            List.reverse_singleton, List.singleton_append,
            List.singleton_append, List.tail_cons, List.tail_cons,
            List.reverse_sublist] at htail
        exact hfront era (hinit.subset hmem)
      exact hjoined

theorem review_eq_ok {zone : TrimmedZone} {kept : List SourceEra} :
    (zone.review window).result = .ok kept ↔ zone.kept ≠ [] ∧ kept = zone.kept := by
  unfold review
  by_cases hnil : zone.kept = []
  · rw [hnil]
    exact ⟨nofun, fun h => absurd rfl h.1⟩
  · have hempty : zone.kept.isEmpty = false := List.isEmpty_eq_false_iff.2 hnil
    have hresult : (zone.review window).result = .ok zone.kept := by
      unfold review
      rw [hempty]
      by_cases hold : zone.tooOld ≠ 0 <;> by_cases hnew : zone.tooNew ≠ 0 <;>
        simp [hold, hnew] <;> rfl
    unfold review at hresult
    rw [hresult]
    constructor
    · intro h
      cases h
      exact ⟨hnil, rfl⟩
    · rintro ⟨_, rfl⟩
      rfl

end TrimmedZone

end ZoneTables
