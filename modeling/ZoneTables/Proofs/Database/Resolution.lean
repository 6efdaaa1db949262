import ZoneTables.Database.Resolution
import ZoneTables.Proofs.Calendar.Order
import ZoneTables.Proofs.Source.Fields
import ZoneTables.Proofs.Success

/-!
# What records are resolved to

A source record that is resolved determines the record of the database: its
times are cut to the granularity of their fields, and all else is taken over.
What is resolved from a proper record is proper in turn.
-/

namespace ZoneTables

/-! ## Times in the granularity of their field -/

namespace TimeWidth

variable {w : TimeWidth}

@[simp] theorem truncate_zero : w.truncate 0 = 0 := by
  unfold truncate
  rw [Int.zero_tdiv, Int.zero_mul]

theorem truncate_truncate (n : Int) :
    w.truncate (w.truncate n) = w.truncate n := by
  unfold truncate
  by_cases hg : w.granularity = 0
  · rw [hg, Int.mul_zero, Int.mul_zero]
  · rw [Int.mul_tdiv_cancel _ hg]

theorem natAbs_truncate_le (n : Int) : (w.truncate n).natAbs ≤ n.natAbs := by
  unfold truncate
  rw [Int.natAbs_mul, Int.natAbs_tdiv]
  exact Nat.div_mul_le_self _ _

theorem encode_mul {n code : Int} (hn : w.truncate n = n)
    (h : w.encode n = some code) : code * w.granularity = n := by
  unfold encode at h
  dsimp only at h
  split at h
  · cases h
    exact hn
  · cases h

theorem result_fit_eq_ok {strict : Bool} {field : FittedField} {n m : Int} :
    (w.fit strict field n).result = .ok m ↔
      m = w.truncate n ∧ (strict → w.truncate n = n) := by
  unfold fit
  dsimp only
  by_cases hn : w.truncate n = n
  · rw [if_pos hn]
    constructor
    · intro h
      cases h
      exact ⟨hn.symm, fun _ => hn⟩
    · rintro ⟨rfl, _⟩
      rw [hn]
      rfl
  · rw [if_neg hn]
    cases strict with
    | true => exact ⟨nofun, fun h => absurd (h.2 rfl) hn⟩
    | false =>
      constructor
      · intro h
        cases h
        exact ⟨rfl, nofun⟩
      · rintro ⟨rfl, _⟩
        rfl

end TimeWidth

/-! ## Proper records -/

def TimeWidth.Holds (w : TimeWidth) (n : Int) : Prop :=
  w.truncate n = n ∧ n.natAbs ≤ Clock.greatest

theorem TimeWidth.holds_zero (w : TimeWidth) : w.Holds 0 :=
  ⟨truncate_zero, Nat.zero_le _⟩

theorem TimeWidth.holds_truncate {w : TimeWidth} {n : Int}
    (h : n.natAbs ≤ Clock.greatest) : w.Holds (w.truncate n) :=
  ⟨truncate_truncate n, Nat.le_trans (natAbs_truncate_le n) h⟩

structure Rule.IsProper (w : Widths) (r : Rule) : Prop where
  least_le : Year.least ≤ r.fromYear
  years : r.fromYear ≤ r.toYear
  le_endless : r.toYear ≤ Year.endless
  month : 1 ≤ r.month ∧ r.month ≤ 12
  day : r.day.IsProper
  time : w.time.Holds r.time
  save : w.save.Holds r.save

/-- Whether daylight saving can be told from its written form. -/
def Saving.IsProper (w : Widths) : Saving → Prop
  | standard => True
  | fixed amount => w.save.Holds amount
  | policy name => isPolicyToken name

/-- Whether an end is no end at all, or a date at a time that is a multiple of
its granularity. -/
structure Until.IsProper (w : Widths) (u : Until) : Prop where
  date : u.isEndless ∨ (Year.least ≤ u.year ∧ u.year ≤ Year.endless ∧
    ∃ date, Date.ofParts? u.year u.month u.day = some date)
  seconds : w.time.Holds u.seconds

structure Era.IsProper (w : Widths) (era : Era) : Prop where
  stdOffset : w.stdOffset.Holds era.stdOffset
  saving : era.saving.IsProper w
  ends : era.ends.IsProper w

/-! ## Rules -/

namespace SourceRule

def resolved (w : Widths) (rule : SourceRule) : Rule where
  fromYear := rule.fromYear
  toYear := rule.toYear
  month := rule.month
  day := rule.day
  time := w.time.truncate rule.time
  frame := rule.frame
  save := w.save.truncate rule.save
  letter := if rule.letter = "-" then "" else rule.letter
  isAnchor := false
  text := tableText rule.origin.text

variable {w : Widths} {strict : Bool} {rule : SourceRule} {r : Rule}

theorem resolve_eq_ok :
    (rule.resolve w strict).result = .ok r ↔
      rule.reviewDay.result = .ok () ∧ r = rule.resolved w ∧
        (strict → w.time.truncate rule.time = rule.time ∧
          w.save.truncate rule.save = rule.save) := by
  unfold resolve
  simp only [Review.result_bind_eq_ok, TimeWidth.result_fit_eq_ok]
  constructor
  · rintro ⟨⟨⟩, hday, time, ⟨rfl, htime⟩, save, ⟨rfl, hsave⟩, h⟩
    cases h
    exact ⟨hday, rfl, fun hs => ⟨htime hs, hsave hs⟩⟩
  · rintro ⟨hday, rfl, hstrict⟩
    exact ⟨(), hday, _, ⟨rfl, fun hs => (hstrict hs).1⟩, _,
      ⟨rfl, fun hs => (hstrict hs).2⟩, rfl⟩

theorem isProper_resolved (h : rule.IsProper) : (rule.resolved w).IsProper w where
  least_le := h.least_le
  years := h.years
  le_endless := h.le_endless
  month := h.month
  day := h.day
  time := TimeWidth.holds_truncate h.time
  save := TimeWidth.holds_truncate h.save

end SourceRule

theorem resolvePolicy_eq_ok {w : Widths} {strict : Bool}
    {sources : List SourceRule} {rules : List Rule} :
    (resolvePolicy w strict sources).result = .ok rules ↔
      List.Forall₂ (fun s r => (s.resolve w strict).result = .ok r)
        sources rules :=
  Review.result_forAll_eq_ok

theorem not_isAnchor_of_resolvePolicy {w : Widths} {strict : Bool}
    {sources : List SourceRule} {rules : List Rule}
    (h : (resolvePolicy w strict sources).result = .ok rules) :
    ∀ r ∈ rules, r.isAnchor = false := by
  intro r hr
  obtain ⟨source, _, hresolved⟩ :=
    forall₂_exists_left (resolvePolicy_eq_ok.1 h) hr
  obtain ⟨_, rfl, _⟩ := SourceRule.resolve_eq_ok.1 hresolved
  rfl

/-! ## Eras -/

def SourceEra.SavesAs (w : Widths) (source : SourceEra) : Saving → Prop
  | .standard => source.rules = "-"
  | .fixed amount => source.rules ≠ "-" ∧ isAmountToken source.rules ∧
    ∃ n, Field.amount source.rules = .ok n ∧ amount = w.save.truncate n
  | .policy name => name = source.rules ∧ isPolicyToken source.rules

def SourceUntil.EndsAs (w : Widths) (source : Option SourceUntil)
    (ends : Until) : Prop :=
  match source with
  | none => ends = .endless
  | some u => ∃ date, u.day.dateIn u.year u.month = some date ∧
    date.year = u.year ∧
    ends = ⟨u.year, date.month, date.day, w.time.truncate u.seconds, u.frame⟩

structure SourceEra.ResolvesTo (w : Widths) (source : SourceEra) (era : Era) :
    Prop where
  stdOffset : era.stdOffset = w.stdOffset.truncate source.stdOffset
  saving : source.SavesAs w era.saving
  format : era.format = source.format
  ends : SourceUntil.EndsAs w source.ends era.ends

namespace SourceEra

variable {w : Widths} {strict : Bool} {source : SourceEra}

theorem savesAs_of_resolveSaving {saving : Saving}
    (h : (source.resolveSaving w strict).result = .ok saving) :
    source.SavesAs w saving := by
  unfold resolveSaving at h
  split at h
  · rename_i hrules
    cases h
    exact hrules
  · rename_i hrules
    split at h
    · rename_i hamount
      split at h
      · cases h
      · rename_i n hn
        rw [Review.result_bind_eq_ok] at h
        obtain ⟨amount, hfit, h⟩ := h
        have hsaving : saving = .fixed amount := by
          dsimp only at h
          split at h <;> cases h <;> rfl
        subst hsaving
        exact ⟨hrules, hamount, n, hn, (TimeWidth.result_fit_eq_ok.1 hfit).1⟩
    · rename_i hamount
      cases h
      refine ⟨rfl, ?_⟩
      unfold isPolicyToken
      rw [Bool.and_eq_true, bne_iff_ne, Bool.not_eq_true']
      exact ⟨hrules, Bool.eq_false_iff.2 hamount⟩

theorem endsAs_of_resolveUntil {u : Option SourceUntil} {ends : Until}
    (h : (resolveUntil w strict u).result = .ok ends) :
    SourceUntil.EndsAs w u ends := by
  unfold resolveUntil at h
  split at h
  · cases h
    rfl
  · split at h
    · cases h
    · rename_i date hdate
      split at h
      · cases h
      · rename_i hyear
        rw [Review.result_bind_eq_ok] at h
        obtain ⟨seconds, hfit, h⟩ := h
        cases h
        rw [(TimeWidth.result_fit_eq_ok.1 hfit).1]
        exact ⟨date, hdate, Decidable.not_not.1 hyear, rfl⟩

theorem resolvesTo_of_resolve {era : Era}
    (h : (source.resolve w strict).result = .ok era) :
    source.ResolvesTo w era := by
  unfold resolve at h
  simp only [Review.result_bind_eq_ok] at h
  obtain ⟨stdOffset, hoffset, saving, hsaving, ⟨⟩, _, ends, hends, h⟩ := h
  cases h
  exact ⟨(TimeWidth.result_fit_eq_ok.1 hoffset).1,
    savesAs_of_resolveSaving hsaving, rfl, endsAs_of_resolveUntil hends⟩

end SourceEra

theorem SourceEra.SavesAs.policy?_eq {w : Widths} {source : SourceEra}
    {saving : Saving} (h : source.SavesAs w saving) :
    saving.policy? = source.policy? := by
  unfold SourceEra.policy? Saving.policy?
  cases saving with
  | standard =>
    have hnot : isPolicyToken source.rules = false := by
      rw [show source.rules = "-" from h]
      rfl
    rw [hnot]
    rfl
  | fixed amount =>
    have hnot : isPolicyToken source.rules = false := by
      rw [isPolicyToken, h.2.1, Bool.not_true, Bool.and_false]
    rw [hnot]
    rfl
  | policy name =>
    rw [if_pos h.2, h.1]

theorem Date.ofParts?_date (d : Date) (h : firstYear ≤ d.year)
    (h' : d.year ≤ lastYear) : ofParts? d.year d.month d.day = some d := by
  unfold ofParts?
  rw [dif_pos ⟨⟨d.month_pos, d.month_le, d.day_pos, d.day_le⟩, h, h'⟩]

theorem Until.isProper_of_endsAs {w : Widths} {source : Option SourceUntil}
    {ends : Until} (hsource : ∀ u, source = some u → u.IsProper)
    (h : SourceUntil.EndsAs w source ends) : ends.IsProper w := by
  cases source with
  | none =>
    cases h
    exact ⟨.inl rfl, TimeWidth.holds_zero _⟩
  | some u =>
    obtain ⟨date, hdate, hyear, rfl⟩ := h
    have hu := hsource u rfl
    have hle := hu.least_le
    have hle' := hu.le_endless
    refine ⟨.inr ⟨hle, hle', date, ?_⟩, TimeWidth.holds_truncate hu.seconds⟩
    dsimp only
    rw [← hyear] at hle hle' ⊢
    unfold Year.least at hle
    unfold Year.endless at hle'
    apply Date.ofParts?_date
    · unfold Date.firstYear
      omega
    · unfold Date.lastYear
      omega

theorem Era.isProper_of_resolvesTo {w : Widths} {source : SourceEra}
    {era : Era} (hsource : source.IsProper) (h : source.ResolvesTo w era) :
    era.IsProper w := by
  refine ⟨?_, ?_, Until.isProper_of_endsAs hsource.ends h.ends⟩
  · rw [h.stdOffset]
    exact TimeWidth.holds_truncate hsource.stdOffset
  · have hsaving := h.saving
    cases hs : era.saving with
    | standard => trivial
    | fixed amount =>
      rw [hs] at hsaving
      obtain ⟨_, _, n, hn, rfl⟩ := hsaving
      exact TimeWidth.holds_truncate (Field.amount_le hn)
    | policy name =>
      rw [hs] at hsaving
      obtain ⟨rfl, hpolicy⟩ := hsaving
      exact hpolicy

theorem resolveZone_eq_ok {w : Widths} {strict : Bool}
    {sources : List SourceEra} {eras : List Era} :
    (resolveZone w strict sources).result = .ok eras ↔
      List.Forall₂ (fun s e => (s.resolve w strict).result = .ok e)
        sources eras ∧ outOfOrder? eras = none := by
  unfold resolveZone
  rw [Review.result_bind_eq_ok]
  constructor
  · rintro ⟨eras', hall, h⟩
    rw [Review.result_forAll_eq_ok] at hall
    split at h
    · cases h
    · rename_i horder
      cases h
      exact ⟨hall, horder⟩
  · rintro ⟨hall, horder⟩
    refine ⟨eras, Review.result_forAll_eq_ok.2 hall, ?_⟩
    rw [horder]
    rfl

end ZoneTables
