import ZoneTables.Calendar.DaySpec
import ZoneTables.Proofs.Choice

/-!
# The order of dates and local times

Dates are ordered by year, month and day, and local times by date and time of
day.  Both orders are total and the later of two dates is not in an earlier
year.
-/

namespace ZoneTables

namespace Date

theorem lt_iff {a b : Date} :
    a < b ↔ a.year < b.year ∨
      (a.year = b.year ∧
        (a.month < b.month ∨ (a.month = b.month ∧ a.day < b.day))) :=
  Iff.rfl

theorem ext_iff {a b : Date} :
    a = b ↔ a.year = b.year ∧ a.month = b.month ∧ a.day = b.day := by
  constructor
  · rintro rfl
    exact ⟨rfl, rfl, rfl⟩
  · obtain ⟨y, m, d, _, _, _, _⟩ := a
    obtain ⟨y', m', d', _, _, _, _⟩ := b
    rintro ⟨hy, hm, hd⟩
    dsimp only at hy hm hd
    subst hy hm hd
    rfl

theorem lt_irrefl (a : Date) : ¬ a < a := by
  rw [lt_iff]
  omega

theorem lt_asymm {a b : Date} (h : a < b) : ¬ b < a := by
  rw [lt_iff] at h ⊢
  omega

theorem lt_trans {a b c : Date} (hab : a < b) (hbc : b < c) : a < c := by
  rw [lt_iff] at hab hbc ⊢
  omega

theorem lt_trichotomy (a b : Date) : a < b ∨ a = b ∨ b < a := by
  rw [lt_iff, lt_iff, ext_iff]
  omega

theorem lt_of_year_lt {a b : Date} (h : a.year < b.year) : a < b :=
  Or.inl h

theorem year_le_of_lt {a b : Date} (h : a < b) : a.year ≤ b.year := by
  rw [lt_iff] at h
  omega

end Date

namespace LocalTime

theorem lt_iff {a b : LocalTime} :
    a < b ↔ a.date < b.date ∨ (a.date = b.date ∧ a.seconds < b.seconds) :=
  Iff.rfl

theorem lt_irrefl (a : LocalTime) : ¬ a < a := by
  rw [lt_iff]
  rintro (h | ⟨_, h⟩)
  · exact Date.lt_irrefl _ h
  · omega

theorem lt_trans {a b c : LocalTime} (hab : a < b) (hbc : b < c) : a < c := by
  rw [lt_iff] at hab hbc ⊢
  rcases hab with hab | ⟨hab, hs⟩
  · rcases hbc with hbc | ⟨hbc, _⟩
    · exact .inl (Date.lt_trans hab hbc)
    · exact .inl (hbc ▸ hab)
  · rcases hbc with hbc | ⟨hbc, hs'⟩
    · exact .inl (hab ▸ hbc)
    · exact .inr ⟨hab.trans hbc, by omega⟩

theorem lt_asymm {a b : LocalTime} (h : a < b) : ¬ b < a :=
  fun h' => lt_irrefl a (lt_trans h h')

theorem lt_trichotomy (a b : LocalTime) : a < b ∨ a = b ∨ b < a := by
  rw [lt_iff, lt_iff]
  rcases Date.lt_trichotomy a.date b.date with h | h | h
  · exact .inl (.inl h)
  · rcases Int.lt_trichotomy a.seconds b.seconds with hs | hs | hs
    · exact .inl (.inr ⟨h, hs⟩)
    · obtain ⟨d, s⟩ := a
      obtain ⟨d', s'⟩ := b
      dsimp only at h hs
      exact .inr (.inl (by rw [h, hs]))
    · exact .inr (.inr (.inr ⟨h.symm, hs⟩))
  · exact .inr (.inr (.inl h))

theorem year_le_of_lt {a b : LocalTime} (h : a < b) :
    a.date.year ≤ b.date.year := by
  rcases h with h | ⟨h, _⟩
  · exact Date.year_le_of_lt h
  · exact Int.le_of_eq (congrArg Date.year h)

theorem lt_of_year_lt {a b : LocalTime} (h : a.date.year < b.date.year) :
    a < b :=
  Or.inl (Date.lt_of_year_lt h)

theorem eq_of_not_lt {a b : LocalTime} (hab : ¬ a < b) (hba : ¬ b < a) :
    a = b :=
  ((lt_trichotomy a b).resolve_left hab).resolve_right hba

theorem isRanking : IsRanking fun a b : LocalTime => decide (a < b) where
  asymm {a b} hab := by
    rw [decide_eq_true_eq] at hab ⊢
    exact lt_asymm hab
  split {a b c} hac := by
    rw [decide_eq_true_eq] at hac
    rw [decide_eq_true_eq, decide_eq_true_eq]
    rcases lt_trichotomy a b with h | rfl | h
    · exact .inl h
    · exact .inr hac
    · exact .inr (lt_trans h hac)

end LocalTime

end ZoneTables
