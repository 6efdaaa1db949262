import ZoneTables.Buffer.Span
import ZoneTables.Proofs.Calendar.Order
import ZoneTables.Proofs.Retention.Rules

/-!
# The rule in force at a local time

What `latestRule?` settles on: a rule that takes effect before the local time,
none of the rules takes effect later, and those behind it in the list all take
effect earlier.
-/

namespace ZoneTables

variable {rules : List Rule} {bound : LocalTime} {rule : Rule}

theorem Rule.lastBeforeTime?_eq_some {time : LocalTime}
    (h : rule.lastBeforeTime? bound = some time) :
    ∃ year, rule.fromYear ≤ year ∧ year ≤ min rule.toYear bound.date.year ∧
      rule.occurrence? year = some time ∧ time < bound := by
  unfold lastBeforeTime? at h
  dsimp only at h
  obtain ⟨year, hmem, hyear⟩ := List.exists_of_findSome?_eq_some h
  split at hyear
  · rename_i hfrom
    obtain ⟨hocc, hlt⟩ := Option.filter_eq_some_iff.1 hyear
    refine ⟨year, hfrom, ?_, hocc, of_decide_eq_true hlt⟩
    rcases List.mem_cons.1 hmem with rfl | hmem
    · exact Int.le_refl _
    · rw [List.mem_singleton.1 hmem]
      omega
  · cases hyear

/-! ## Anchors -/

def LocalTime.first : LocalTime :=
  ⟨⟨Year.least, 1, 1, by decide, by decide, by decide, by decide⟩, 0⟩

def Date.newYear (year : Int) : Date :=
  ⟨year, 1, 1, by decide, by decide, by decide,
    monthLength_pos (by decide) (by decide)⟩

theorem LocalTime.first_lt_of_year (h : Year.least < bound.date.year) :
    first < bound :=
  lt_of_year_lt h

theorem lastBeforeTime?_anchorRule (rules : List Rule) (year : Int)
    (h : LocalTime.first < bound) :
    (anchorRule rules year).lastBeforeTime? bound = some .first := by
  have hyear : Year.least ≤ bound.date.year := LocalTime.year_le_of_lt h
  have hocc : (anchorRule rules year).occurrence? Year.least = some .first := rfl
  have hmin : min Year.least bound.date.year = Year.least := by omega
  unfold Rule.lastBeforeTime?
  dsimp only
  rw [toYear_anchorRule, fromYear_anchorRule, hmin, List.findSome?_cons,
    if_pos (Int.le_refl _), hocc, Option.filter_some,
    if_pos (decide_eq_true h)]

/-! ## The rule that is found -/

theorem latestRule?_eq_none :
    latestRule? rules bound = none ↔
      ∀ r ∈ rules, r.lastBeforeTime? bound = none := by
  unfold latestRule?
  rw [Option.map_eq_none_iff, lastGreatest?_eq_none, List.filterMap_eq_nil_iff]
  exact forall₂_congr fun r _ => Option.map_eq_none_iff

theorem latestRule?_eq_some (h : latestRule? rules bound = some rule) :
    ∃ front back time, rules = front ++ rule :: back ∧
      rule.lastBeforeTime? bound = some time ∧
      (∀ r ∈ front, ∀ t, r.lastBeforeTime? bound = some t → ¬ time < t) ∧
      ∀ r ∈ back, ∀ t, r.lastBeforeTime? bound = some t → t < time := by
  obtain ⟨front, back, time, hsplit, htime, hfront, hback⟩ :=
    choose?_measured_eq_some LocalTime.isRanking.isPreference_not h
  refine ⟨front, back, time, hsplit, htime, fun r hr t ht => ?_,
    fun r hr t ht => ?_⟩
  · simpa using hfront r hr t ht
  · simpa using hback r hr t ht

theorem latestRule?_of_split {front back : List Rule} {time : LocalTime}
    (htime : rule.lastBeforeTime? bound = some time)
    (hfront : ∀ r ∈ front, ∀ t, r.lastBeforeTime? bound = some t → ¬ time < t)
    (hback : ∀ r ∈ back, ∀ t, r.lastBeforeTime? bound = some t → t < time) :
    latestRule? (front ++ rule :: back) bound = some rule := by
  apply choose?_measured_of_split (fun a b : LocalTime => !decide (a < b))
    (fun r : Rule => r.lastBeforeTime? bound) htime
  · intro r hr t ht
    simpa using hfront r hr t ht
  · intro r hr t ht
    simpa using hback r hr t ht

theorem latestRule?_greatest (h : latestRule? rules bound = some rule) :
    rule ∈ rules ∧ ∃ time, rule.lastBeforeTime? bound = some time ∧
      ∀ r ∈ rules, ∀ t, r.lastBeforeTime? bound = some t → ¬ time < t := by
  obtain ⟨front, back, time, rfl, htime, hfront, hback⟩ := latestRule?_eq_some h
  refine ⟨List.mem_append_right _ List.mem_cons_self, time, htime, ?_⟩
  intro r hr t ht
  rcases List.mem_append.1 hr with hr | hr
  · exact hfront r hr t ht
  · rcases List.mem_cons.1 hr with rfl | hr
    · rw [htime] at ht
      cases ht
      exact LocalTime.lt_irrefl time
    · exact LocalTime.lt_asymm (hback r hr t ht)

/-- Among rules that correspond and take effect last at the same times, rules
that correspond are found. -/
theorem rel_latestRule? {R : Rule → Rule → Prop}
    (htime : ∀ r r', R r r' →
      r.lastBeforeTime? bound = r'.lastBeforeTime? bound)
    {rules' : List Rule} (h : List.Forall₂ R rules rules') :
    Option.Rel R (latestRule? rules bound) (latestRule? rules' bound) := by
  let timed : List Rule → List (LocalTime × Rule) :=
    List.filterMap fun rule =>
      (rule.lastBeforeTime? bound).map fun time => (time, rule)
  have htimed : List.Forall₂ (fun p p' => p.1 = p'.1 ∧ R p.2 p'.2)
      (timed rules) (timed rules') := by
    induction h with
    | nil => exact .nil
    | @cons r r' _ _ hr _ ih =>
      simp only [timed, List.filterMap_cons, htime r r' hr] at ih ⊢
      cases r'.lastBeforeTime? bound with
      | none => exact ih
      | some time => exact .cons ⟨rfl, hr⟩ ih
  have hfound : Option.Rel (fun p p' => p.1 = p'.1 ∧ R p.2 p'.2)
      (lastGreatest? (fun a b => decide (a.1 < b.1)) (timed rules))
      (lastGreatest? (fun a b => decide (a.1 < b.1)) (timed rules')) := by
    refine rel_choose? (fun a a' b b' hab hab' => ?_) htimed
    dsimp only
    rw [hab.1, hab'.1]
  show Option.Rel R (Option.map Prod.snd (lastGreatest? _ (timed rules)))
    (Option.map Prod.snd (lastGreatest? _ (timed rules')))
  generalize lastGreatest? _ (timed rules) = found at hfound ⊢
  generalize lastGreatest? _ (timed rules') = found' at hfound ⊢
  cases hfound with
  | none => exact .none
  | some hr => exact .some hr.2

end ZoneTables
