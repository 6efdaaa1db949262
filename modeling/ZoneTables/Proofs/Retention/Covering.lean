import ZoneTables.Proofs.Database.Dates
import ZoneTables.Proofs.Retention.Lookback

/-!
# The rules of one year under two windows

A policy keeps all its rules of a year in which an era follows it.  The kept
rules of any year are in one order, so that two selections that keep the same
rules of a year list them alike.
-/

namespace ZoneTables

namespace RuleSelection

variable {window window' : Window} {years years' : List EraYears}
  {y : EraYears} {rules : List Rule} {r : Rule} {year : Int}

theorem mem_selected_of_covers (hy : y ∈ years) (hr : r ∈ rules)
    (hcovers : r.covers year) (hfirst : y.first ≤ year)
    (hlast : year ≤ y.last) :
    r ∈ (RuleSelection.of years rules).selected window := by
  have hyears := Rule.covers_iff.1 hcovers
  apply mem_selected.2
  right
  refine mem_kept.2 ⟨hr, y, hy, ?_⟩
  have hneeds : r.fromYear < y.last + 1 ∧ y.first ≤ r.toYear := by omega
  simp [RuleNeed.needs, RuleNeed.of, hneeds]

theorem filter_selected_eq (hrules : ∀ r ∈ rules, r.isAnchor = false)
    (hanchor : year = Year.least → window.start = window'.start)
    (hsame : ∀ r ∈ rules, r.covers year →
      (r ∈ (RuleSelection.of years rules).selected window ↔
        r ∈ (RuleSelection.of years' rules).selected window')) :
    ((RuleSelection.of years rules).selected window).filter (·.covers year) =
      ((RuleSelection.of years' rules).selected window').filter
        (·.covers year) := by
  have hkept : ∀ (window : Window) (years : List EraYears), ∀ r ∈ rules,
      (r ∈ (RuleSelection.of years rules).selected window ↔
        (years.map (RuleNeed.of rules)).any fun need => need.needs r) := by
    intro window years r hr
    have hne : r ≠ anchorRule rules (window.start - 1) := by
      rintro rfl
      have := hrules _ hr
      simp at this
    simp [mem_selected, mem_kept, hr, hne]
  have hfilter : (RuleSelection.of years rules).kept.filter (·.covers year) =
      (RuleSelection.of years' rules).kept.filter (·.covers year) := by
    show (rules.filter _).filter _ = (rules.filter _).filter _
    rw [List.filter_filter, List.filter_filter]
    apply List.filter_congr
    intro r hr
    by_cases hcovers : r.covers year
    · have hiff := hsame r hr hcovers
      rw [hkept window years r hr, hkept window' years' r hr] at hiff
      rw [Bool.eq_iff_iff.2 hiff]
    · simp [hcovers]
  show (sortByKey _ _).filter _ = (sortByKey _ _).filter _
  rw [filter_sortByKey_eq, filter_sortByKey_eq, List.filter_cons,
    List.filter_cons, hfilter]
  by_cases hleast : year = Year.least
  · -- only in the least year does the anchor take part
    rw [hanchor hleast]
    rfl
  · have hnot : ∀ (rules : List Rule) (start : Int),
        (anchorRule rules start).covers year = false := by
      intro rules start
      rw [← Bool.not_eq_true, Rule.covers_iff, fromYear_anchorRule,
        toYear_anchorRule]
      omega
    rw [hnot, hnot]
    rfl

/-- The anchors of two windows take effect at the same time, so that different
rules are found only where both windows find their anchor. -/
theorem latestRule?_full_eq_or (window window' : Window) (rules : List Rule)
    (bound : LocalTime) :
    latestRule? (full window rules) bound =
        latestRule? (full window' rules) bound ∨
      (latestRule? (full window rules) bound =
          some (anchorRule rules (window.start - 1)) ∧
        latestRule? (full window' rules) bound =
          some (anchorRule rules (window'.start - 1))) := by
  have hfound : Option.Rel (fun r r' => r = r' ∨
        (r = anchorRule rules (window.start - 1) ∧
          r' = anchorRule rules (window'.start - 1)))
      (latestRule? (full window rules) bound)
      (latestRule? (full window' rules) bound) := by
    apply rel_latestRule?
    · rintro r r' (rfl | ⟨rfl, rfl⟩)
      · rfl
      · rfl
    · exact .cons (.inr ⟨rfl, rfl⟩) (List.forall₂_same.2 fun _ _ => .inl rfl)
  generalize latestRule? (full window rules) bound = found at hfound ⊢
  generalize latestRule? (full window' rules) bound = found' at hfound ⊢
  cases hfound with
  | none => exact .inl rfl
  | some h =>
    rcases h with rfl | ⟨rfl, rfl⟩
    · exact .inl rfl
    · exact .inr ⟨rfl, rfl⟩

end RuleSelection

/-! ## Made databases -/

def Source.ResolvesPolicy (o : Options) (s : Source) (name : String)
    (rules : List Rule) : Prop :=
  ∃ sources, s.policies.get? name = some sources ∧
    (resolvePolicy o.widths o.strict sources).result = .ok rules

section Made

variable {o : Options} {s : Source} {db : Database} {name : String}
  {resolved rules : List Rule}

theorem Source.ResolvesPolicy.unique {resolved' : List Rule}
    (h : s.ResolvesPolicy o name resolved)
    (h' : s.ResolvesPolicy o name resolved') : resolved = resolved' := by
  obtain ⟨sources, hsources, hresolve⟩ := h
  obtain ⟨sources', hsources', hresolve'⟩ := h'
  simp_all

theorem Source.ResolvesPolicy.not_isAnchor
    (h : s.ResolvesPolicy o name resolved) :
    ∀ r ∈ resolved, r.isAnchor = false := by
  obtain ⟨sources, _, hresolve⟩ := h
  exact not_isAnchor_of_resolvePolicy hresolve

theorem MadeOf.exists_selected (h : MadeOf o s db)
    (hrules : db.policies.get? name = some rules) :
    ∃ resolved, s.ResolvesPolicy o name resolved ∧
      rules = (RuleSelection.of (policyYears o.window
        (Passes.of o s).usableZones.kept name) resolved).selected o.window := by
  obtain ⟨sources, resolved, hsources, hresolve, hselected⟩ :=
    h.exists_policy hrules
  exact ⟨resolved, ⟨sources, hsources, hresolve⟩, hselected⟩

section Era

variable {zone : String} {eras : List Era} {era : Era} {y : EraYears}
  (h : MadeOf o s db) (hzone : db.zones.get? zone = some eras)
  (hera : (era, y) ∈ eraYears o.window.stop (o.window.start - 1) eras)
  (hsaving : era.saving = .policy name)

include h hzone hera hsaving

theorem MadeOf.mem_policyYears :
    y ∈ policyYears o.window (Passes.of o s).usableZones.kept name := by
  rw [h.zones] at hzone
  exact ZoneTables.mem_policyYears (Passes.get?_zones.1 hzone).1 hera hsaving

variable (hrules : db.policies.get? name = some rules)
  (hresolved : s.ResolvesPolicy o name resolved)

include hrules hresolved

theorem MadeOf.mem_of_covers {r : Rule} {year : Int} (hr : r ∈ resolved)
    (hcovers : r.covers year) (hfirst : y.first ≤ year)
    (hlast : year ≤ y.last) : r ∈ rules := by
  obtain ⟨resolved', hresolved', rfl⟩ := h.exists_selected hrules
  obtain rfl := hresolved.unique hresolved'
  exact RuleSelection.mem_selected_of_covers
    (h.mem_policyYears hzone hera hsaving) hr hcovers hfirst hlast

/-- In the years of an era the rule that is found among the rules of a made
database is the one that is found among all, unless that one is displaced. -/
theorem MadeOf.latestRule?_eq_or_displaced {bound : LocalTime}
    (hfirst : y.first ≤ bound.date.year) (hlast : bound.date.year ≤ y.last) :
    latestRule? rules bound =
        latestRule? (RuleSelection.full o.window resolved) bound ∨
      ∃ found other, Displaced (RuleSelection.full o.window resolved) rules
        y.first bound found other := by
  obtain ⟨resolved', hresolved', rfl⟩ := h.exists_selected hrules
  obtain rfl := hresolved.unique hresolved'
  obtain ⟨sources, hsources, hresolve⟩ := hresolved
  rw [RuleSelection.latestRule?_selected_eq_iff
    (h.resolved_isProper hsources hresolve) hresolved'.not_isAnchor
    (h.mem_policyYears hzone hera hsaving) hfirst hlast]
  exact (em _).symm

end Era

variable {w' : Window} {db' : Database} {rules' : List Rule} {year : Int}

theorem MadeOf.filter_covers_eq (h : MadeOf o s db)
    (h' : MadeOf { o with window := w' } s db')
    (hrules : db.policies.get? name = some rules)
    (hrules' : db'.policies.get? name = some rules')
    (hfrom : w'.start ≤ o.window.start) (hyear : o.window.start - 1 ≤ year)
    (hsame : ∀ resolved, s.ResolvesPolicy o name resolved →
      ∀ r ∈ resolved, r.covers year → (r ∈ rules ↔ r ∈ rules')) :
    rules.filter (·.covers year) = rules'.filter (·.covers year) := by
  obtain ⟨resolved, hresolved, rfl⟩ := h.exists_selected hrules
  obtain ⟨resolved', hresolved', rfl⟩ := h'.exists_selected hrules'
  obtain rfl : resolved = resolved' := hresolved.unique hresolved'
  apply RuleSelection.filter_selected_eq hresolved.not_isAnchor
  · -- the least year is replayed only if both windows start behind it
    intro hleast
    have := h'.least_lt
    dsimp only at this ⊢
    omega
  · exact hsame resolved hresolved

end Made

end ZoneTables
