import ZoneTables.Proofs.Choice
import ZoneTables.Proofs.Database.Resolution
import ZoneTables.Proofs.Sort
import ZoneTables.Retention.Rules

/-!
# The rules that are kept

What a selection hands on are the kept rules and their anchor, in the order of
their first years.  An anchor made of proper rules is proper.
-/

namespace ZoneTables

/-! ## Anchors -/

theorem mem_of_ruleInForce? {rules : List Rule} {year : Int} {rule : Rule}
    (h : ruleInForce? rules year = some rule) : rule ∈ rules := by
  unfold ruleInForce? at h
  dsimp only at h
  obtain ⟨⟨time, rule'⟩, hchoice, heq⟩ := Option.map_eq_some_iff.1 h
  cases heq
  obtain ⟨r, hr, heq⟩ := List.mem_filterMap.1 (choose?_mem hchoice)
  obtain ⟨_, _, heq⟩ := Option.map_eq_some_iff.1 heq
  cases heq
  exact hr

@[simp] theorem isAnchor_anchorRule (rules : List Rule) (year : Int) :
    (anchorRule rules year).isAnchor = true := rfl

@[simp] theorem day_anchorRule (rules : List Rule) (year : Int) :
    (anchorRule rules year).day = .exact 1 := rfl

@[simp] theorem fromYear_anchorRule (rules : List Rule) (year : Int) :
    (anchorRule rules year).fromYear = Year.least := rfl

@[simp] theorem toYear_anchorRule (rules : List Rule) (year : Int) :
    (anchorRule rules year).toYear = Year.least := rfl

theorem save_anchorRule (rules : List Rule) (year : Int) :
    (anchorRule rules year).save = 0 ∨
      ∃ rule ∈ rules, (anchorRule rules year).save = rule.save := by
  unfold anchorRule
  dsimp only
  cases hforce : ruleInForce? rules year with
  | some rule => exact .inr ⟨rule, mem_of_ruleInForce? hforce, rfl⟩
  | none => cases firstStandardRule? rules <;> exact .inl rfl

theorem isProper_anchorRule {w : Widths} {rules : List Rule}
    (h : ∀ r ∈ rules, r.IsProper w) (year : Int) :
    (anchorRule rules year).IsProper w where
  least_le := Int.le_refl _
  years := Int.le_refl _
  le_endless := by
    show Year.least ≤ Year.endless
    decide
  month := by
    show 1 ≤ 1 ∧ 1 ≤ 12
    decide
  day := ⟨Nat.le_refl 1, by decide⟩
  time := TimeWidth.holds_zero _
  save := by
    rcases save_anchorRule rules year with hsave | ⟨rule, hmem, hsave⟩
    · rw [hsave]
      exact TimeWidth.holds_zero _
    · rw [hsave]
      exact (h rule hmem).save

/-! ## Last months -/

theorem LastMonth.isRanking : IsRanking LastMonth.isBefore where
  asymm {a b} hab := by
    unfold isBefore at hab ⊢
    rw [decide_eq_true_eq] at hab ⊢
    omega
  split {a b c} hac := by
    unfold isBefore at hac ⊢
    rw [decide_eq_true_eq] at hac
    rw [decide_eq_true_eq, decide_eq_true_eq]
    omega

theorem LastMonth.eq_of_not_isBefore {a b : LastMonth} (hab : ¬ a.isBefore b)
    (hba : ¬ b.isBefore a) : a = b := by
  unfold isBefore at hab hba
  rw [decide_eq_true_eq] at hab hba
  obtain ⟨year, month⟩ := a
  obtain ⟨year', month'⟩ := b
  dsimp only at hab hba
  have hyear : year = year' := by omega
  have hmonth : month = month' := by omega
  rw [hyear, hmonth]

section LastMonths

variable {rules : List Rule} {year : Int} {month : LastMonth} {r : Rule}

theorem exists_of_latestBefore? (h : latestBefore? rules year = some month) :
    ∃ k ∈ rules, k.toYear < year ∧ k.lastMonth = month := by
  obtain ⟨k, hk, hmonth⟩ := List.mem_map.1 (choose?_mem h)
  rw [List.mem_filter, decide_eq_true_eq] at hk
  exact ⟨k, hk.1, hk.2, hmonth⟩

theorem exists_of_earliestFrom? (h : earliestFrom? rules year = some month) :
    ∃ k ∈ rules, year ≤ k.toYear ∧ k.lastMonth = month := by
  obtain ⟨k, hk, hmonth⟩ := List.mem_map.1 (choose?_mem h)
  rw [List.mem_filter, decide_eq_true_eq] at hk
  exact ⟨k, hk.1, hk.2, hmonth⟩

theorem exists_latestBefore? (hr : r ∈ rules) (hto : r.toYear < year) :
    ∃ month, latestBefore? rules year = some month := by
  rw [← Option.isSome_iff_exists, Option.isSome_iff_ne_none]
  intro hnone
  rw [latestBefore?, lastGreatest?_eq_none, List.map_eq_nil_iff,
    List.filter_eq_nil_iff] at hnone
  exact hnone r hr (decide_eq_true hto)

theorem exists_earliestFrom? (hr : r ∈ rules) (hto : year ≤ r.toYear) :
    ∃ month, earliestFrom? rules year = some month := by
  rw [← Option.isSome_iff_exists, Option.isSome_iff_ne_none]
  intro hnone
  rw [earliestFrom?, firstLeast?, choose?_eq_none, List.map_eq_nil_iff,
    List.filter_eq_nil_iff] at hnone
  exact hnone r hr (decide_eq_true hto)

theorem not_isBefore_of_latestBefore?
    (h : latestBefore? rules year = some month) (hr : r ∈ rules)
    (hto : r.toYear < year) : ¬ month.isBefore r.lastMonth :=
  (lastGreatest?_greatest LastMonth.isRanking h).2 r.lastMonth
    (List.mem_map_of_mem (List.mem_filter.2 ⟨hr, decide_eq_true hto⟩))

theorem not_isBefore_of_earliestFrom?
    (h : earliestFrom? rules year = some month) (hr : r ∈ rules)
    (hto : year ≤ r.toYear) : ¬ r.lastMonth.isBefore month :=
  (firstLeast?_least LastMonth.isRanking h).2 r.lastMonth
    (List.mem_map_of_mem (List.mem_filter.2 ⟨hr, decide_eq_true hto⟩))

theorem RuleNeed.needs_iff {y : EraYears} :
    (RuleNeed.of rules y).needs r ↔
      (r.fromYear ≤ y.last ∧ y.first ≤ r.toYear) ∨
        latestBefore? rules y.first = some r.lastMonth ∨
        earliestFrom? rules (y.last + 1) = some r.lastMonth := by
  unfold needs RuleNeed.of
  simp only [Bool.or_eq_true, Bool.and_eq_true, decide_eq_true_eq, beq_iff_eq,
    or_assoc, Int.lt_add_one_iff]

end LastMonths

/-! ## Selections -/

theorem Rule.mem_inOrder {rules : List Rule} {r : Rule} :
    r ∈ Rule.inOrder rules ↔ r ∈ rules :=
  mem_sortByKey

theorem Rule.inOrder_sorted (rules : List Rule) :
    (Rule.inOrder rules).Pairwise fun a b => a.fromYear ≤ b.fromYear :=
  pairwise_sortByKey rules

namespace RuleSelection

variable {window : Window} {years : List EraYears} {rules : List Rule}

theorem review_eq_ok {s : RuleSelection} {selected : List Rule} :
    (s.review window).result = .ok selected ↔
      s.kept ≠ [] ∧ selected = s.selected window := by
  unfold review
  by_cases hnil : s.kept = []
  · rw [hnil]
    exact ⟨nofun, fun h => absurd rfl h.1⟩
  · have hempty : s.kept.isEmpty = false := List.isEmpty_eq_false_iff.2 hnil
    rw [hempty]
    constructor
    · intro h
      cases h
      exact ⟨hnil, rfl⟩
    · rintro ⟨_, rfl⟩
      rfl

theorem mem_kept {r : Rule} :
    r ∈ (RuleSelection.of years rules).kept ↔
      r ∈ rules ∧ ∃ y ∈ years, (RuleNeed.of rules y).needs r := by
  unfold RuleSelection.of
  dsimp only
  rw [List.mem_filter, List.any_map, List.any_eq_true]
  rfl

/-- Some rule is kept for any years, if there is a rule with years: it ends
before these years, or covers one of them, or ends after them. -/
theorem kept_ne_nil {y : EraYears} (hy : y ∈ years) {r : Rule} (hr : r ∈ rules)
    (hyears : r.fromYear ≤ r.toYear) :
    (RuleSelection.of years rules).kept ≠ [] := by
  have hneeded : ∃ k ∈ rules, (RuleNeed.of rules y).needs k := by
    simp only [RuleNeed.needs_iff]
    by_cases hbefore : r.toYear < y.first
    · obtain ⟨month, hmonth⟩ := exists_latestBefore? hr hbefore
      obtain ⟨k, hk, _, rfl⟩ := exists_of_latestBefore? hmonth
      exact ⟨k, hk, .inr (.inl hmonth)⟩
    · by_cases hafter : y.last + 1 ≤ r.toYear
      · obtain ⟨month, hmonth⟩ := exists_earliestFrom? hr hafter
        obtain ⟨k, hk, _, rfl⟩ := exists_of_earliestFrom? hmonth
        exact ⟨k, hk, .inr (.inr hmonth)⟩
      · exact ⟨r, hr, .inl (by omega)⟩
  obtain ⟨k, hk, hneeds⟩ := hneeded
  exact List.ne_nil_of_mem (mem_kept.2 ⟨hk, y, hy, hneeds⟩)

theorem mem_selected {r : Rule} :
    r ∈ (RuleSelection.of years rules).selected window ↔
      r = anchorRule rules (window.start - 1) ∨
        r ∈ (RuleSelection.of years rules).kept := by
  unfold selected
  rw [Rule.mem_inOrder, List.mem_cons]
  rfl

theorem isProper_selected {w : Widths} (h : ∀ r ∈ rules, r.IsProper w) :
    ∀ r ∈ (RuleSelection.of years rules).selected window, r.IsProper w := by
  intro r hr
  rcases mem_selected.1 hr with rfl | hr
  · exact isProper_anchorRule h _
  · exact h r (mem_kept.1 hr).1

end RuleSelection

end ZoneTables
