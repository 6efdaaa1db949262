import ZoneTables.Proofs.Buffer.Alike
import ZoneTables.Proofs.Buffer.Overlap

/-!
# Candidates at one instant

Every candidate of a year lies in the span that it comes from.  In a zone whose
spans do not overlap, candidates at one instant are thus of one era, and so of
one policy: the start of the era wins, and without one the first rule.  Names
of policies do not matter.
-/

namespace ZoneTables

/-! ## Where candidates come from -/

/-- Whether a candidate is the start of the span at a position, or of a rule of
that span that takes effect in it. -/
def Candidate.ComesFrom (l : List Span) (index : Nat) (c : Candidate) : Prop :=
  ∃ s, l[index]? = some s ∧ c.policy = s.policyName ∧
    match c.origin with
    | .eraStart i => i = index ∧ s.start = some c.instant
    | .rule k => s.contains c.instant ∧ ∃ policy rule,
        s.policy = some policy ∧ policy.rules[k]? = some rule ∧
          c.save = rule.save

structure Pending.ComesFrom (l : List Span) (p : Pending) : Prop where
  span : l[p.active.index]? = some p.active.span
  rule : ∃ policy, p.active.span.policy = some policy ∧
    policy.rules[p.index]? = some p.rule

section Origins

variable {z : ZoneReplay} {bounds : YearBounds} {year save : Int}
  {l : List Span}

theorem comesFrom_of_activate {s : Span} {index : Nat} {a : ActiveSpan}
    (hs : l[index]? = some s) (ha : z.activate bounds index s = .ok a)
    {c : Candidate} (hc : a.start = some c) : c.ComesFrom l index := by
  obtain ⟨_, _, hstart⟩ := ZoneReplay.eq_of_activate ha
  rcases hstart with ⟨start, time, save, _, hstart, _, _, hcandidate⟩ | ⟨hnone, _⟩
  · rw [hcandidate] at hc
    cases hc
    exact ⟨s, hs, rfl, rfl, hstart⟩
  · rw [hnone] at hc
    cases hc

theorem comesFrom_of_pending {a : ActiveSpan} {ps : List Pending}
    (hs : l[a.index]? = some a.span) (hps : a.pending year = .ok ps) :
    ∀ p ∈ ps, p.ComesFrom l := by
  intro q hq
  rcases ActiveSpan.eq_of_pending hps with ⟨_, rfl⟩ | ⟨policy, hpolicy, hall⟩
  · cases hq
  · obtain ⟨p, hp, time, _, rfl⟩ := forall₂_exists_left hall hq
    exact ⟨hs, policy, hpolicy, (mem_covering_iff.1 hp).1⟩

theorem comesFrom_of_candidates {ps : List Pending} {c : Candidate}
    (h : ∀ p ∈ ps, p.ComesFrom l) :
    ∀ {save previous}, c ∈ Pending.candidates save previous ps →
      ∃ index, c.ComesFrom l index := by
  induction ps with
  | nil => exact fun hc => absurd hc List.not_mem_nil
  | cons p ps ih =>
    rw [List.forall_mem_cons] at h
    intro save previous hc
    rw [Pending.candidates] at hc
    split at hc
    · rename_i hin
      rcases List.mem_cons.1 hc with rfl | hc
      · obtain ⟨hspan, policy, hpolicy, hrule⟩ := h.1
        exact ⟨p.active.index, p.active.span, hspan, rfl, hin, policy, p.rule,
          hpolicy, hrule, rfl⟩
      · exact ih h.2 hc
    · exact ih h.2 hc

theorem ZoneReplay.exists_of_collect {active : List (Span × Nat)}
    {starts : List Candidate} {pending : List Pending}
    (hr : z.collect year bounds active = .ok (starts, pending)) :
    (∀ c ∈ starts, ∃ p ∈ active, ∃ a, z.activate bounds p.2 p.1 = .ok a ∧
      a.start = some c) ∧
    ∀ q ∈ pending, ∃ p ∈ active, ∃ a qs, z.activate bounds p.2 p.1 = .ok a ∧
      a.pending year = .ok qs ∧ q ∈ qs := by
  induction active generalizing starts pending with
  | nil =>
    cases hr
    exact ⟨List.forall_mem_nil _, List.forall_mem_nil _⟩
  | cons p active ih =>
    rw [collect] at hr
    obtain ⟨a, ha, hr⟩ := except_bind_eq_ok.1 hr
    obtain ⟨qs, hqs, hr⟩ := except_bind_eq_ok.1 hr
    obtain ⟨⟨more, rest⟩, hmore, heq⟩ := except_bind_eq_ok.1 hr
    cases heq
    obtain ⟨hstarts, hpending⟩ := ih hmore
    constructor
    · intro c hc
      rcases List.mem_append.1 hc with hc | hc
      · exact ⟨p, List.mem_cons_self, a, ha, Option.mem_toList.1 hc⟩
      · obtain ⟨p', hp', hfrom⟩ := hstarts c hc
        exact ⟨p', List.mem_cons_of_mem _ hp', hfrom⟩
    · intro q hq
      rcases List.mem_append.1 hq with hq | hq
      · exact ⟨p, List.mem_cons_self, a, qs, ha, hqs, hq⟩
      · obtain ⟨p', hp', hfrom⟩ := hpending q hq
        exact ⟨p', List.mem_cons_of_mem _ hp', hfrom⟩

theorem comesFrom_of_collect {active : List (Span × Nat)}
    {starts : List Candidate} {pending : List Pending}
    (h : ∀ p ∈ active, l[p.2]? = some p.1)
    (hr : z.collect year bounds active = .ok (starts, pending)) :
    (∀ c ∈ starts, ∃ index, c.ComesFrom l index) ∧
      ∀ p ∈ pending, p.ComesFrom l := by
  obtain ⟨hstarts, hpending⟩ := ZoneReplay.exists_of_collect hr
  constructor
  · intro c hc
    obtain ⟨p, hp, a, ha, hstart⟩ := hstarts c hc
    exact ⟨p.2, comesFrom_of_activate (h p hp) ha hstart⟩
  · intro q hq
    obtain ⟨p, hp, a, qs, ha, hqs, hq⟩ := hpending q hq
    obtain ⟨hindex, hspan, _⟩ := ZoneReplay.eq_of_activate ha
    have hs : l[a.index]? = some a.span := by
      rw [hindex, hspan]
      exact h p hp
    exact comesFrom_of_pending hs hqs q hq

theorem ZoneReplay.exists_comesFrom {cs : List Candidate}
    (hcs : z.candidates year save = .ok cs) {c : Candidate} (hc : c ∈ cs) :
    ∃ index, c.ComesFrom z.spans index := by
  obtain ⟨starts, pending, ⟨bounds, _, _, hcollect⟩, rfl⟩ :=
    candidates_eq_ok.1 hcs
  have hactive : ∀ p ∈ z.spans.zipIdx.filter fun p => p.1.isActive bounds,
      z.spans[p.2]? = some p.1 := fun p hp =>
    List.mem_zipIdx_iff_getElem?.1 (List.mem_filter.1 hp).1
  obtain ⟨hstarts, hpending⟩ := comesFrom_of_collect hactive hcollect
  rcases List.mem_append.1 (mem_sortByKey.1 hc) with hc | hc
  · exact hstarts c hc
  · refine comesFrom_of_candidates (fun p hp => ?_) hc
    exact hpending p (mem_sortByKey.1 hp)

end Origins

/-! ## Spans that do not overlap -/

instance (s : Span) : Decidable s.IsForward :=
  decidable_of_iff
    (∀ start ∈ s.start, ∀ stop ∈ s.stop, start < stop)
    ⟨fun h start stop hstart hstop => h start hstart stop hstop,
      fun h start hstart stop hstop => h start stop hstart hstop⟩

/-- Whether spans are not empty and do not overlap.  Spans of open eras can overlap
without being empty. -/
structure SpansApart (l : List Span) : Prop where
  forward : ∀ s ∈ l, s.IsForward
  disjoint : l.Pairwise Span.Disjoint

section Forward

variable {policies : Policies} {zone : String} {eras : List Era}
  {start : Option Int} {localStart : Option LocalTime} {l : List Span}

end Forward

theorem Span.IsForward.contains_start {s : Span} (h : s.IsForward) {start : Int}
    (hstart : s.start = some start) : s.contains start := by
  rw [Span.contains_iff]
  constructor
  · intro t ht
    rw [hstart] at ht
    exact Int.le_of_eq (Option.some.inj ht).symm
  · intro t ht
    exact h start t hstart ht

namespace Candidate

variable {l : List Span} {c c' : Candidate} {i j : Nat}

theorem ComesFrom.exists_contains (h : c.ComesFrom l i)
    (hl : ∀ s ∈ l, s.IsForward) :
    ∃ s, l[i]? = some s ∧ c.policy = s.policyName ∧ s.contains c.instant := by
  obtain ⟨s, hs, hpolicy, horigin⟩ := h
  refine ⟨s, hs, hpolicy, ?_⟩
  split at horigin
  · exact (hl s (List.mem_of_getElem? hs)).contains_start horigin.2
  · exact horigin.1

theorem ComesFrom.unique (h : c.ComesFrom l i) (h' : c'.ComesFrom l j)
    (hl : SpansApart l) (hinstant : c.instant = c'.instant) : i = j := by
  obtain ⟨s, hs, _, hin⟩ := h.exists_contains hl.forward
  obtain ⟨s', hs', _, hin'⟩ := h'.exists_contains hl.forward
  rw [← hinstant] at hin'
  obtain ⟨hi, rfl⟩ := List.getElem?_eq_some_iff.1 hs
  obtain ⟨hj, rfl⟩ := List.getElem?_eq_some_iff.1 hs'
  have hpairwise := List.pairwise_iff_getElem.1 hl.disjoint
  rcases Nat.lt_trichotomy i j with hlt | heq | hlt
  · exact absurd hin' (hpairwise i j hi hj hlt _ hin)
  · exact heq
  · exact absurd hin (hpairwise j i hj hi hlt _ hin')

end Candidate

/-! ## Who wins -/

theorem Origin.isRanking_isBefore : IsRanking Origin.isBefore where
  asymm {a b} hab := by
    cases a <;> cases b <;> simp [isBefore] at hab ⊢
    all_goals omega
  split {a b c} hac := by
    cases a <;> cases b <;> cases c <;> simp [isBefore] at hac ⊢
    all_goals omega

theorem Origin.eq_of_not_isBefore {a b : Origin} (h : ¬ a.isBefore b)
    (h' : ¬ b.isBefore a) : a = b := by
  cases a <;> cases b <;> simp [isBefore] at h h' ⊢
  all_goals omega

namespace Candidate

end Candidate

namespace ZoneReplay

variable {z : ZoneReplay} {year save : Int} {cs : List Candidate}

end ZoneReplay

end ZoneTables
