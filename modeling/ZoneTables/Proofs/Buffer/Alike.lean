import ZoneTables.Proofs.Buffer.Acceptance
import ZoneTables.Proofs.Buffer.Chain
import ZoneTables.Proofs.Buffer.Correspondence
import ZoneTables.Proofs.Calendar.YearStart

/-!
# Replays that are alike

A zone of one database and a zone of another one need the same room if their
spans hold the same instants of the years that are replayed, and if their
policies say the same about these years.  Spans that the years do not touch,
and the positions at which spans and rules stand, do not matter.
-/

namespace ZoneTables

/-! ## Positions of rules -/

def covering (year : Int) (rules : List Rule) : List (Rule × Nat) :=
  rules.zipIdx.filter fun p => p.1.covers year

theorem map_fst_covering (year : Int) (rules : List Rule) :
    (covering year rules).map Prod.fst = rules.filter (·.covers year) := by
  have hmap : rules.zipIdx.map Prod.fst = rules := List.zipIdx_map_fst 0 rules
  unfold covering
  nth_rewrite 2 [← hmap]
  rw [List.filter_map]
  rfl

theorem mem_covering_iff {year : Int} {rules : List Rule} {p : Rule × Nat} :
    p ∈ covering year rules ↔ rules[p.2]? = some p.1 ∧ p.1.covers year := by
  rw [covering, List.mem_filter, List.mem_zipIdx_iff_getElem?]

theorem lt_iff_of_covering {year : Int} {rules : List Rule} {k k' : Nat}
    {p p' : Rule × Nat} (h : (covering year rules)[k]? = some p)
    (h' : (covering year rules)[k']? = some p') : p.2 < p'.2 ↔ k < k' := by
  have hsorted : (covering year rules).Pairwise fun p p' => p.2 < p'.2 := by
    apply List.Pairwise.filter
    rw [← List.pairwise_map (f := Prod.snd) (R := fun i j : Nat => i < j),
      List.zipIdx_map_snd]
    exact List.pairwise_lt_range'
  rw [List.pairwise_iff_getElem] at hsorted
  obtain ⟨hk, rfl⟩ := List.getElem?_eq_some_iff.1 h
  obtain ⟨hk', rfl⟩ := List.getElem?_eq_some_iff.1 h'
  rcases Nat.lt_trichotomy k k' with hlt | heq | hlt
  · exact ⟨fun _ => hlt, fun _ => hsorted k k' hk hk' hlt⟩
  · subst heq
    simp
  · have := hsorted k' k hk' hk hlt
    omega

/-- Whether positions in two databases correspond in a year: those of eras stand
further back by so many places, and those of rules are of one rule among those
that cover the year. -/
inductive Origin.Alike (policies policies' : Policies) (shift : Nat)
    (year : Int) (name : String) : Origin → Origin → Prop where
  | eraStart {i : Nat} :
    Alike policies policies' shift year name (.eraStart i)
      (.eraStart (i + shift))
  | rule {rules rules' : List Rule} {k : Nat} {p p' : Rule × Nat} :
    policies.get? name = some rules → policies'.get? name = some rules' →
    (covering year rules)[k]? = some p → (covering year rules')[k]? = some p' →
    Alike policies policies' shift year name (.rule p.2) (.rule p'.2)

theorem Origin.keepsOrder_alike {policies policies' : Policies} {shift : Nat}
    {year : Int} : KeepsOrder (Origin.Alike policies policies' shift year) := by
  intro name a a' b b' h h'
  cases h with
  | eraStart =>
    cases h' with
    | eraStart => simp [isBefore]
    | rule _ _ _ _ => rfl
  | rule hrules hrules' hk hk' =>
    cases h' with
    | eraStart => rfl
    | rule hrules₁ hrules₁' hk₁ hk₁' =>
      rw [hrules] at hrules₁
      rw [hrules'] at hrules₁'
      cases hrules₁
      cases hrules₁'
      simp [isBefore, lt_iff_of_covering hk hk₁, lt_iff_of_covering hk' hk₁']

/-! ## Spans -/

theorem Span.IsOf.policyName_eq {policies : Policies} {era : Era} {s : Span}
    (h : s.IsOf policies era) : s.policyName = era.saving.policy?.getD "" := by
  unfold Span.policyName
  cases hsaving : era.saving with
  | standard =>
    rw [h.noPolicy (by rw [hsaving]; rfl)]
    rfl
  | fixed amount =>
    rw [h.noPolicy (by rw [hsaving]; rfl)]
    rfl
  | policy name =>
    obtain ⟨rules, _, hpolicy⟩ := h.policy name hsaving
    rw [hpolicy]
    rfl

/-- Whether spans of two databases are of eras that save alike, and hold the
same instants of a stretch. -/
structure Span.Alike (policies policies' : Policies) (seen : Stretch)
    (s s' : Span) : Prop where
  isOf : s.IsOf policies s.era
  isOf' : s'.IsOf policies' s'.era
  stdOffset : s.era.stdOffset = s'.era.stdOffset
  saving : s.era.saving = s'.era.saving
  startsBy : ∀ instant, seen.Has instant →
    s.startsBy instant = s'.startsBy instant
  stopsAfter : ∀ instant, seen.Has instant →
    s.stopsAfter instant = s'.stopsAfter instant
  localStart : ∀ start, s.start = some start → s.localStart = s'.localStart

structure Stretch.Reaches (seen : Stretch) (bounds : YearBounds) : Prop where
  start : seen.start ≤ bounds.start - yearSlack
  order : bounds.start < bounds.stop
  stop : bounds.stop + yearSlack ≤ seen.stop

namespace Span

theorem startsBy_iff {s : Span} {instant : Int} :
    s.startsBy instant ↔ ∀ start, s.start = some start → start ≤ instant := by
  unfold startsBy
  cases s.start with
  | none => simp
  | some start => simp

theorem stopsAfter_iff {s : Span} {instant : Int} :
    s.stopsAfter instant ↔ ∀ stop, s.stop = some stop → instant < stop := by
  unfold stopsAfter
  cases s.stop with
  | none => simp
  | some stop => simp

theorem isActive_eq {s : Span} {bounds : YearBounds} :
    s.isActive bounds = (s.startsBy (bounds.stop + yearSlack - 1) &&
      s.stopsAfter (bounds.start - yearSlack)) := by
  have hstart : (s.start.all fun start => decide (start < bounds.stop + yearSlack))
      = s.startsBy (bounds.stop + yearSlack - 1) := by
    unfold startsBy
    congr 1
    funext start
    rw [decide_eq_decide]
    omega
  unfold isActive
  rw [hstart]

theorem startsIn_eq {s : Span} {bounds : YearBounds} :
    s.startsIn bounds =
      (s.startsBy (bounds.stop - 1) && !s.startsBy (bounds.start - 1)) := by
  unfold startsIn startsBy
  cases s.start with
  | none => rfl
  | some start =>
    simp only [Option.any_some, Option.all_some, Bool.and_comm,
      ← decide_not, ← Bool.decide_and]
    rw [decide_eq_decide]
    omega

theorem exists_start {s : Span} {bounds : YearBounds} (h : s.startsIn bounds) :
    ∃ start, s.start = some start := by
  unfold startsIn at h
  cases hstart : s.start with
  | none => simp [hstart] at h
  | some start => exact ⟨start, rfl⟩

namespace Alike

variable {policies policies' : Policies} {seen : Stretch} {s s' : Span}
  {bounds : YearBounds}

theorem contains_eq (h : s.Alike policies policies' seen s') {instant : Int}
    (hin : seen.Has instant) : s.contains instant = s'.contains instant := by
  unfold Span.contains
  rw [h.startsBy instant hin, h.stopsAfter instant hin]

theorem isActive_eq (h : s.Alike policies policies' seen s')
    (hseen : seen.Reaches bounds) : s.isActive bounds = s'.isActive bounds := by
  obtain ⟨hstart, horder, hstop⟩ := hseen
  have hslack : 0 < yearSlack := by decide
  rw [Span.isActive_eq, Span.isActive_eq,
    h.startsBy _ ⟨by omega, by omega⟩, h.stopsAfter _ ⟨by omega, by omega⟩]

theorem startsIn_eq (h : s.Alike policies policies' seen s')
    (hseen : seen.Reaches bounds) : s.startsIn bounds = s'.startsIn bounds := by
  obtain ⟨hstart, horder, hstop⟩ := hseen
  have hslack : 1 < yearSlack := by decide
  rw [Span.startsIn_eq, Span.startsIn_eq,
    h.startsBy _ ⟨by omega, by omega⟩, h.startsBy _ ⟨by omega, by omega⟩]

theorem start_eq (h : s.Alike policies policies' seen s')
    (hseen : seen.Reaches bounds) (hin : s.startsIn bounds) {start : Int}
    (hs : s.start = some start) : s'.start = some start := by
  obtain ⟨hfrom, horder, hto⟩ := hseen
  have hslack : 1 < yearSlack := by decide
  have hin' := hin
  unfold Span.startsIn at hin'
  rw [hs, Option.any_some, Bool.and_eq_true, decide_eq_true_eq,
    decide_eq_true_eq] at hin'
  have hby : s'.startsBy start := by
    rw [← h.startsBy start ⟨by omega, by omega⟩, Span.startsBy_iff, hs]
    simp
  have hnot : ¬ s'.startsBy (start - 1) := by
    rw [← h.startsBy (start - 1) ⟨by omega, by omega⟩, Span.startsBy_iff, hs]
    intro hle
    have := hle start rfl
    omega
  rw [Span.startsBy_iff] at hby hnot
  push Not at hnot
  obtain ⟨start', hstart', hlt⟩ := hnot
  have hle := hby start' hstart'
  obtain rfl : start' = start := by omega
  exact hstart'

theorem policyName_eq (h : s.Alike policies policies' seen s') :
    s.policyName = s'.policyName := by
  rw [h.isOf.policyName_eq, h.isOf'.policyName_eq, h.saving]

end Alike

end Span

/-! ## One span in a year -/

/-- Whether the policies of two databases say the same of a span in a year.
The savings of the span are among given ones, and whichever of them is in
force, its rules take effect in a stretch of instants. -/
structure Span.AgreesIn (policies policies' : Policies) (seen : Stretch)
    (S : Int → Prop) (bounds : YearBounds) (year : Int) (s : Span) : Prop where
  saves : ∀ save, s.era.CanSave policies save → S save
  start : ∀ time save save', s.startsIn bounds → s.localStart = some time →
    s.era.SavesBefore policies time.nextSecond save →
    s.era.SavesBefore policies' time.nextSecond save' → save = save'
  covering : ∀ name rules rules', s.era.saving = .policy name →
    policies.get? name = some rules → policies'.get? name = some rules' →
    rules.filter (·.covers year) = rules'.filter (·.covers year)
  instant : ∀ name rules r time save, s.era.saving = .policy name →
    policies.get? name = some rules → r ∈ rules → r.covers year →
    r.occurrence? year = some time → S save →
    seen.Has (time.unixSeconds - r.frame.offset s.era.stdOffset save)

structure ActiveSpan.Alike (policies policies' : Policies) (seen : Stretch)
    (shift : Nat) (year : Int) (a a' : ActiveSpan) : Prop where
  span : a.span.Alike policies policies' seen a'.span
  index : a'.index = a.index + shift
  start : Option.Rel
    (Candidate.Alike (Origin.Alike policies policies' shift year)) a.start a'.start

theorem ZoneReplay.eq_of_activate {z : ZoneReplay} {bounds : YearBounds}
    {index : Nat} {s : Span} {a : ActiveSpan}
    (h : z.activate bounds index s = .ok a) :
    a.index = index ∧ a.span = s ∧
      ((∃ start time save, s.startsIn bounds ∧ s.start = some start ∧
          s.localStart = some time ∧
          s.saveBefore z.zone time.nextSecond = .ok save ∧
          a.start = some ⟨start, s.policyName, .eraStart index, save⟩) ∨
        (a.start = none ∧ ¬ (s.startsIn bounds ∧ s.localStart.isSome))) := by
  unfold activate at h
  split at h
  · rename_i start time hstart htime
    split at h
    · rename_i hin
      obtain ⟨save, hsave, heq⟩ := except_bind_eq_ok.1 h
      cases heq
      exact ⟨rfl, rfl, .inl ⟨start, time, save, hin, hstart, htime, hsave, rfl⟩⟩
    · rename_i hout
      cases h
      exact ⟨rfl, rfl, .inr ⟨rfl, fun hboth => hout hboth.1⟩⟩
  · rename_i hnot
    cases h
    refine ⟨rfl, rfl, .inr ⟨rfl, ?_⟩⟩
    rintro ⟨hin, hlocal⟩
    obtain ⟨time, htime⟩ := Option.isSome_iff_exists.1 hlocal
    obtain ⟨start, hstart⟩ := Span.exists_start hin
    exact hnot start time hstart htime

section OneSpan

variable {policies policies' : Policies} {seen : Stretch} {S : Int → Prop}
  {bounds : YearBounds} {year : Int} {shift : Nat}

theorem ZoneReplay.activate_alike {z z' : ZoneReplay} {s s' : Span}
    {index : Nat} {a a' : ActiveSpan}
    (h : s.Alike policies policies' seen s') (hseen : seen.Reaches bounds)
    (hagrees : s.AgreesIn policies policies' seen S bounds year)
    (ha : z.activate bounds index s = .ok a)
    (ha' : z'.activate bounds (index + shift) s' = .ok a') :
    a.Alike policies policies' seen shift year a' ∧
      ∀ c, a.start = some c → S c.save := by
  obtain ⟨rfl, rfl, hstarts⟩ := eq_of_activate ha
  obtain ⟨hindex, rfl, hstarts'⟩ := eq_of_activate ha'
  have hin := h.startsIn_eq hseen
  rcases hstarts with
    ⟨start, time, save, hin₁, hstart, htime, hsave, hcandidate⟩ | ⟨hnone, hnot⟩
  · have hstart' := h.start_eq hseen hin₁ hstart
    have htime' := h.localStart start hstart
    rcases hstarts' with
      ⟨start₂, time₂, save₂, _, hstart₂, htime₂, hsave₂, hcandidate₂⟩ |
        ⟨_, hnot₂⟩
    · rw [hstart'] at hstart₂
      rw [← htime', htime] at htime₂
      cases hstart₂
      cases htime₂
      have hsaves := (h.isOf.saveBefore_eq_ok_iff _).1 hsave
      have hsaves' := (h.isOf'.saveBefore_eq_ok_iff _).1 hsave₂
      have hsame : save = save₂ := hagrees.start time _ _ hin₁ htime hsaves
        (hsaves'.congr h.saving.symm)
      refine ⟨⟨h, hindex, ?_⟩, fun c hc => ?_⟩
      · rw [hcandidate, hcandidate₂]
        exact .some ⟨rfl, h.policyName_eq, hsame, .eraStart⟩
      · rw [hcandidate] at hc
        cases hc
        exact hagrees.saves _ hsaves.canSave
    · rw [← hin, ← htime', htime] at hnot₂
      exact absurd ⟨hin₁, rfl⟩ hnot₂
  · rcases hstarts' with
      ⟨start₂, time₂, _, hin₂, _, htime₂, _, _⟩ | ⟨hnone', _⟩
    · rw [← hin] at hin₂
      obtain ⟨start, hstart⟩ := Span.exists_start hin₂
      rw [h.localStart start hstart, htime₂] at hnot
      exact absurd ⟨hin₂, rfl⟩ hnot
    · refine ⟨⟨h, hindex, ?_⟩, fun c hc => ?_⟩
      · rw [hnone, hnone']
        exact .none
      · rw [hnone] at hc
        cases hc

theorem ActiveSpan.eq_of_pending {a : ActiveSpan} {ps : List Pending}
    (h : a.pending year = .ok ps) :
    (a.span.policy = none ∧ ps = []) ∨
      ∃ policy, a.span.policy = some policy ∧
        List.Forall₂
          (fun p q => ∃ time, p.1.occurrence? year = some time ∧
            q = ⟨a, p.2, p.1, time.unixSeconds⟩)
          (covering year policy.rules) ps := by
  unfold pending at h
  split at h
  · rename_i hnone
    cases h
    exact .inl ⟨hnone, rfl⟩
  · rename_i policy hpolicy
    right
    refine ⟨policy, hpolicy, ?_⟩
    refine (except_mapM_eq_ok.1 h).imp ?_
    intro p q hq
    dsimp only at hq
    split at hq
    · rename_i time htime
      cases hq
      exact ⟨time, htime, rfl⟩
    · cases hq

theorem ActiveSpan.active_of_pending {a : ActiveSpan} {year : Int}
    {ps : List Pending} (h : a.pending year = .ok ps) :
    ∀ p ∈ ps, p.active = a := by
  intro p hp
  rcases eq_of_pending h with ⟨_, rfl⟩ | ⟨_, _, hall⟩
  · cases hp
  · obtain ⟨_, _, _, _, rfl⟩ := forall₂_exists_left hall hp
    rfl

theorem ActiveSpan.staysIn_of_pending {a : ActiveSpan} {ps : List Pending}
    (hof : a.span.IsOf policies a.span.era)
    (hagrees : a.span.AgreesIn policies policies' seen S bounds year)
    (hstart : ∀ c, a.start = some c → S c.save) (hps : a.pending year = .ok ps) :
    ∀ p ∈ ps, p.StaysIn seen S := by
  intro q hq
  rcases eq_of_pending hps with ⟨_, rfl⟩ | ⟨policy, hpolicy, hall⟩
  · cases hq
  · obtain ⟨hsaving, hrules⟩ := hof.exists_policy hpolicy
    obtain ⟨p, hp, time, htime, rfl⟩ := forall₂_exists_left hall hq
    obtain ⟨hat, hcovers⟩ := mem_covering_iff.1 hp
    have hmem : p.1 ∈ policy.rules := List.mem_of_getElem? hat
    refine ⟨?_, hstart, fun save hsave => ?_⟩
    · apply hagrees.saves
      unfold Era.CanSave
      rw [hsaving]
      exact ⟨policy.rules, hrules, p.1, hmem, rfl⟩
    · exact hagrees.instant _ _ _ _ _ hsaving hrules hmem hcovers htime hsave

theorem Span.Alike.policy_rel {s s' : Span}
    (h : s.Alike policies policies' seen s') :
    Option.Rel
      (fun p p' => s.era.saving = .policy p.name ∧
        policies.get? p.name = some p.rules ∧
        policies'.get? p.name = some p'.rules) s.policy s'.policy := by
  cases hpolicy : s.policy with
  | none =>
    cases hpolicy' : s'.policy with
    | none => exact .none
    | some policy' =>
      obtain ⟨hsaving', _⟩ := h.isOf'.exists_policy hpolicy'
      obtain ⟨_, _, hsome⟩ := h.isOf.policy _ (h.saving.trans hsaving')
      rw [hpolicy] at hsome
      cases hsome
  | some policy =>
    obtain ⟨hsaving, hrules⟩ := h.isOf.exists_policy hpolicy
    cases hpolicy' : s'.policy with
    | none =>
      obtain ⟨_, _, hsome⟩ := h.isOf'.policy _ (h.saving.symm.trans hsaving)
      rw [hpolicy'] at hsome
      cases hsome
    | some policy' =>
      obtain ⟨hsaving', hrules'⟩ := h.isOf'.exists_policy hpolicy'
      have hname : policy.name = policy'.name := by
        have hsame := h.saving
        rw [hsaving, hsaving'] at hsame
        exact Saving.policy.inj hsame
      rw [← hname] at hrules'
      exact .some ⟨hsaving, hrules, hrules'⟩

theorem ActiveSpan.pending_alike {a a' : ActiveSpan} {ps ps' : List Pending}
    (h : a.Alike policies policies' seen shift year a')
    (hagrees : a.span.AgreesIn policies policies' seen S bounds year)
    (hps : a.pending year = .ok ps) (hps' : a'.pending year = .ok ps') :
    List.Forall₂
      (Pending.Alike seen (Origin.Alike policies policies' shift year) shift)
      ps ps' := by
  have hsave : a.start.map (·.save) = a'.start.map (·.save) := by
    have hrel := h.start
    generalize a.start = x at hrel
    generalize a'.start = x' at hrel
    cases hrel with
    | none => rfl
    | some hc => exact congrArg some hc.save
  have hpolicy := h.span.policy_rel
  rcases eq_of_pending hps with ⟨hnone, rfl⟩ | ⟨policy, hsome, hall⟩
  · rcases eq_of_pending hps' with ⟨_, rfl⟩ | ⟨policy', hsome', _⟩
    · exact .nil
    · rw [hnone, hsome'] at hpolicy
      cases hpolicy
  · rcases eq_of_pending hps' with ⟨hnone', _⟩ | ⟨policy', hsome', hall'⟩
    · rw [hsome, hnone'] at hpolicy
      cases hpolicy
    · rw [hsome, hsome'] at hpolicy
      cases hpolicy with
      | some hrel =>
        obtain ⟨hsaving, hrules, hrules'⟩ := hrel
        have hpolicyName : a.span.policyName = policy.name := by
          unfold Span.policyName
          rw [hsome]
        have hsame : (covering year policy.rules).map Prod.fst =
            (covering year policy'.rules).map Prod.fst := by
          rw [map_fst_covering, map_fst_covering]
          exact hagrees.covering _ _ _ hsaving hrules hrules'
        -- occurrences in corresponding places are those of the same rule
        rw [List.forall₂_iff_get] at hall hall' ⊢
        have hlength := congrArg List.length hsame
        rw [List.length_map, List.length_map] at hlength
        refine ⟨by omega, fun k hk hk' => ?_⟩
        obtain ⟨time, htime, hq⟩ := hall.2 k (by omega) hk
        obtain ⟨time', htime', hq'⟩ := hall'.2 k (by omega) hk'
        simp only [List.get_eq_getElem] at htime htime' hq hq' ⊢
        have hrule : (covering year policy.rules)[k].1 =
            (covering year policy'.rules)[k].1 := by
          have hget := congrArg (fun l => l[k]?) hsame
          simpa [List.getElem?_eq_getElem, hall.1 ▸ hk, hall'.1 ▸ hk'] using hget
        rw [hrule, htime'] at htime
        cases htime
        rw [hq, hq']
        refine ⟨hrule, rfl, h.span.stdOffset, h.span.policyName_eq, ?_,
          fun instant => h.span.contains_eq, h.index, hsave⟩
        rw [hpolicyName]
        exact .rule hrules hrules' (List.getElem?_eq_getElem (hall.1 ▸ hk))
          (List.getElem?_eq_getElem (hall'.1 ▸ hk'))

end OneSpan

/-! ## All spans in a year -/

/-- Whether two lists of spans are alike where they touch a stretch: the second
one has so many spans in front that stop before the stretch, and each can have
spans at its end that start behind it. -/
def SpansAlike (policies policies' : Policies) (seen : Stretch)
    (shift : Nat) (l l' : List Span) : Prop :=
  ∃ old common common' late late', l = common ++ late ∧
    l' = old ++ common' ++ late' ∧ shift = old.length ∧
    List.Forall₂ (Span.Alike policies policies' seen) common common' ∧
    (∀ s ∈ old, ∀ instant, seen.Has instant → ¬ s.stopsAfter instant) ∧
    ∀ s ∈ late ++ late', ∀ instant, seen.Has instant → ¬ s.startsBy instant

section AllSpans

variable {policies policies' : Policies} {seen : Stretch} {S : Int → Prop}
  {bounds : YearBounds} {year : Int} {shift : Nat} {l l' : List Span}

theorem SpansAlike.rel_find? (h : SpansAlike policies policies' seen shift l l')
    {instant : Int} (hin : seen.Has instant) :
    Option.Rel (Span.Alike policies policies' seen)
      (l.find? fun s => s.contains instant)
      (l'.find? fun s => s.contains instant) := by
  obtain ⟨old, common, common', late, late', rfl, rfl, _, hcommon, hold, hlate⟩ :=
    h
  have hnone : ∀ l : List Span, (∀ s ∈ l, ¬ s.contains instant) →
      (l.find? fun s => s.contains instant) = none :=
    fun l hl => List.find?_eq_none.2 hl
  rw [List.find?_append, List.find?_append, List.find?_append,
    hnone old, hnone late, hnone late', Option.none_or, Option.or_none,
    Option.or_none]
  · induction hcommon with
    | nil => exact .none
    | @cons s s' common common' hs _ ih =>
      rw [List.find?_cons, List.find?_cons, ← hs.contains_eq hin]
      split
      · exact .some hs
      · exact ih
  · intro s hs
    have := hlate s (List.mem_append_right _ hs) instant hin
    simp [Span.contains, this]
  · intro s hs
    have := hlate s (List.mem_append_left _ hs) instant hin
    simp [Span.contains, this]
  · intro s hs
    have := hold s hs instant hin
    simp [Span.contains, this]

theorem SpansAlike.forall₂_active
    (h : SpansAlike policies policies' seen shift l l')
    (hseen : seen.Reaches bounds) :
    List.Forall₂
      (fun p p' => p.1.Alike policies policies' seen p'.1 ∧ p'.2 = p.2 + shift)
      (l.zipIdx.filter fun p => p.1.isActive bounds)
      (l'.zipIdx.filter fun p => p.1.isActive bounds) := by
  obtain ⟨old, common, common', late, late', rfl, rfl, hshift, hcommon, hold,
    hlate⟩ := h
  have hslack : 0 < yearSlack := by decide
  have hstart := hseen.start
  have horder := hseen.order
  have hstop := hseen.stop
  have hnone : ∀ (l : List Span) (n : Nat),
      (∀ s ∈ l, s.isActive bounds = false) →
      ((l.zipIdx n).filter fun p => p.1.isActive bounds) = [] := by
    intro l n hl
    rw [List.filter_eq_nil_iff]
    intro p hp
    simpa using hl p.1 (List.fst_mem_of_mem_zipIdx hp)
  have hold' : ∀ s ∈ old, s.isActive bounds = false := by
    intro s hs
    have := hold s hs (bounds.start - yearSlack) ⟨by omega, by omega⟩
    simp [Span.isActive_eq, this]
  have hlate' : ∀ s ∈ late ++ late', s.isActive bounds = false := by
    intro s hs
    have := hlate s hs (bounds.stop + yearSlack - 1) ⟨by omega, by omega⟩
    simp [Span.isActive_eq, this]
  rw [List.zipIdx_append, List.zipIdx_append, List.zipIdx_append,
    List.filter_append, List.filter_append, List.filter_append, hnone old _ hold',
    hnone late, hnone late', List.append_nil, List.append_nil, List.nil_append,
    ← hshift]
  · have hfrom : ∀ n, List.Forall₂
        (fun p p' => p.1.Alike policies policies' seen p'.1 ∧ p'.2 = p.2 + shift)
        ((common.zipIdx n).filter fun p => p.1.isActive bounds)
        ((common'.zipIdx (n + shift)).filter fun p => p.1.isActive bounds) := by
      induction hcommon with
      | nil => exact fun _ => .nil
      | @cons s s' common common' hs _ ih =>
        intro n
        have hnext := ih (n + 1)
        rw [Nat.add_right_comm] at hnext
        rw [List.zipIdx_cons, List.zipIdx_cons, List.filter_cons,
          List.filter_cons, ← hs.isActive_eq hseen]
        split
        · exact .cons ⟨hs, rfl⟩ hnext
        · exact hnext
    exact hfrom 0
  · exact fun s hs => hlate' s (List.mem_append_right _ hs)
  · exact fun s hs => hlate' s (List.mem_append_left _ hs)

variable {z z' : ZoneReplay}

theorem ZoneReplay.collect_alike {ps ps' : List (Span × Nat)}
    {starts starts' : List Candidate} {pending pending' : List Pending}
    (h : List.Forall₂
      (fun p p' => p.1.Alike policies policies' seen p'.1 ∧ p'.2 = p.2 + shift)
      ps ps')
    (hseen : seen.Reaches bounds)
    (hagrees : ∀ p ∈ ps, p.1.AgreesIn policies policies' seen S bounds year)
    (hr : z.collect year bounds ps = .ok (starts, pending))
    (hr' : z'.collect year bounds ps' = .ok (starts', pending')) :
    List.Forall₂ (Candidate.Alike (Origin.Alike policies policies' shift year))
        starts starts' ∧ (∀ c ∈ starts, S c.save) ∧
      List.Forall₂
        (Pending.Alike seen (Origin.Alike policies policies' shift year) shift)
        pending pending' ∧ ∀ p ∈ pending, p.StaysIn seen S := by
  induction h generalizing starts starts' pending pending' with
  | nil =>
    cases hr
    cases hr'
    exact ⟨.nil, by simp, .nil, by simp⟩
  | @cons p p' ps ps' hp _ ih =>
    obtain ⟨s, index⟩ := p
    obtain ⟨s', index'⟩ := p'
    obtain ⟨hs, rfl⟩ := hp
    rw [List.forall_mem_cons] at hagrees
    rw [collect] at hr hr'
    obtain ⟨a, ha, hr⟩ := except_bind_eq_ok.1 hr
    obtain ⟨qs, hqs, hr⟩ := except_bind_eq_ok.1 hr
    obtain ⟨⟨moreStarts, more⟩, hmore, heq⟩ := except_bind_eq_ok.1 hr
    cases heq
    obtain ⟨a', ha', hr'⟩ := except_bind_eq_ok.1 hr'
    obtain ⟨qs', hqs', hr'⟩ := except_bind_eq_ok.1 hr'
    obtain ⟨⟨moreStarts', more'⟩, hmore', heq'⟩ := except_bind_eq_ok.1 hr'
    cases heq'
    obtain ⟨halike, hstart⟩ := activate_alike hs hseen hagrees.1 ha ha'
    have hspan : a.span = s := (eq_of_activate ha).2.1
    have hpending :=
      ActiveSpan.pending_alike halike (hspan ▸ hagrees.1) hqs hqs'
    have hstays := ActiveSpan.staysIn_of_pending halike.span.isOf
      (hspan ▸ hagrees.1) hstart hqs
    obtain ⟨hstarts, hsaves, hrest, hrestStays⟩ := ih hagrees.2 hmore hmore'
    have hfirst : List.Forall₂
        (Candidate.Alike (Origin.Alike policies policies' shift year))
        a.start.toList a'.start.toList := by
      have hrel := halike.start
      generalize a.start = x at hrel
      generalize a'.start = x' at hrel
      cases hrel with
      | none => exact .nil
      | some hc => exact .cons hc .nil
    refine ⟨List.rel_append hfirst hstarts, ?_, List.rel_append hpending hrest,
      ?_⟩
    · simp only [List.forall_mem_append]
      refine ⟨fun c hc => ?_, hsaves⟩
      exact hstart c (Option.mem_toList.1 hc)
    · simp only [List.forall_mem_append]
      exact ⟨hstays, hrestStays⟩

theorem ZoneReplay.candidates_alike {save : Int} {cs cs' : List Candidate}
    (h : SpansAlike policies policies' seen shift z.spans z'.spans)
    (hbounds : yearBounds? year = some bounds) (hseen : seen.Reaches bounds)
    (hagrees : ∀ s ∈ z.spans, s.isActive bounds →
      s.AgreesIn policies policies' seen S bounds year)
    (hsave : S save) (hcs : z.candidates year save = .ok cs)
    (hcs' : z'.candidates year save = .ok cs') :
    List.Forall₂ (Candidate.Alike (Origin.Alike policies policies' shift year))
        cs cs' ∧ ∀ c ∈ cs, S c.save := by
  obtain ⟨starts, pending, ⟨bounds₁, hbounds₁, _, hr⟩, rfl⟩ :=
    candidates_eq_ok.1 hcs
  obtain ⟨starts', pending', ⟨bounds₂, hbounds₂, _, hr'⟩, rfl⟩ :=
    candidates_eq_ok.1 hcs'
  rw [hbounds] at hbounds₁ hbounds₂
  cases hbounds₁
  cases hbounds₂
  obtain ⟨hstarts, hsaves, hpending, hstays⟩ :=
    collect_alike (h.forall₂_active hseen) hseen
      (fun p hp => by
        obtain ⟨hmem, hactive⟩ := List.mem_filter.1 hp
        exact hagrees p.1 (List.fst_mem_of_mem_zipIdx hmem) hactive) hr hr'
  have hstays' : ∀ p ∈ Pending.inOrder pending, p.StaysIn seen S :=
    fun p hp => hstays p (mem_sortByKey.1 hp)
  have hcandidates : List.Forall₂
      (Candidate.Alike (Origin.Alike policies policies' shift year))
      (Pending.candidates save none (Pending.inOrder pending))
      (Pending.candidates save none (Pending.inOrder pending')) :=
    Pending.forall₂_candidates (Pending.forall₂_inOrder hpending) hstays' hsave
  constructor
  · apply Candidate.forall₂_inOrder
    exact List.rel_append hstarts hcandidates
  · intro c hc
    rcases List.mem_append.1 (mem_sortByKey.1 hc) with hc | hc
    · exact hsaves c hc
    · obtain ⟨p, hp, heq⟩ := Pending.save_of_mem_candidates hc
      rw [heq]
      exact (hstays' p hp).rule

end AllSpans

/-! ## Whole replays -/

section Replays

variable {policies policies' : Policies} {seen : Stretch} {S : Int → Prop}
  {shift : Nat} {z z' : ZoneReplay} {w : Window}

/-- Replays that are alike in all years, and start from the same saving, need
the same room in each year. -/
theorem ZoneReplay.map_need_years
    (h : SpansAlike policies policies' seen shift z.spans z'.spans)
    {count : Nat} :
    ∀ {first save : Int} {done done' : List ReplayedYear},
      (∀ year, first ≤ year → year < first + count →
        ∀ bounds, yearBounds? year = some bounds → seen.Reaches bounds ∧
          ∀ s ∈ z.spans, s.isActive bounds →
            s.AgreesIn policies policies' seen S bounds year) →
      S save → (z.years done save first count).fault = none →
      (z'.years done' save first count).fault = none →
      done.map (fun y => (y.year, y.need)) =
        done'.map (fun y => (y.year, y.need)) →
      (z.years done save first count).years.map (fun y => (y.year, y.need)) =
        (z'.years done' save first count).years.map
          fun y => (y.year, y.need) := by
  induction count with
  | zero => exact fun _ _ _ _ hdone => hdone
  | succ count ih =>
    intro first save done done' hyears hsave hfault hfault' hdone
    rw [years] at hfault hfault' ⊢
    rw [years]
    cases hcs : z.candidates first save with
    | error e =>
      rw [hcs] at hfault
      cases hfault
    | ok cs =>
      cases hcs' : z'.candidates first save with
      | error e =>
        rw [hcs'] at hfault'
        cases hfault'
      | ok cs' =>
        rw [hcs] at hfault
        rw [hcs'] at hfault'
        dsimp only at hfault hfault' ⊢
        obtain ⟨_, _, ⟨bounds, hbounds, _⟩, _⟩ := candidates_eq_ok.1 hcs
        obtain ⟨hseen, hagrees⟩ := hyears first (by omega) (by omega) _ hbounds
        obtain ⟨halike, hsaves⟩ :=
          candidates_alike h hbounds hseen hagrees hsave hcs hcs'
        -- candidates that correspond leave the same saving to the next year
        have hafter := Candidate.saveAfter_eq Origin.keepsOrder_alike halike save
        rw [← hafter] at hfault' ⊢
        refine ih (fun year hfrom hto => hyears year (by omega) (by omega)) ?_
          hfault hfault' ?_
        · rcases Candidate.saveAfter_mem save cs with heq | ⟨c, hc, heq⟩
          · rw [heq]
            exact hsave
          · rw [heq]
            exact hsaves c hc
        · rw [List.map_cons, List.map_cons, hdone]
          unfold ReplayedYear.need
          dsimp only
          rw [halike.length_eq]

theorem BufferSize.ofYears_eq {first : Int} {years years' : List ReplayedYear}
    (h : years.map (fun y => (y.year, y.need)) =
      years'.map (fun y => (y.year, y.need))) :
    ofYears first years = ofYears first years' := by
  have hfold : ∀ years, ofYears first years =
      ((years.map fun y => (y.year, y.need)).reverse.foldl
        (fun peak y => if peak.size < y.2 then ⟨y.2, y.1⟩ else peak)
        ⟨0, first⟩) := by
    intro years
    rw [← List.map_reverse, List.foldl_map]
    rfl
  rw [hfold, hfold, h]

theorem ZoneReplay.initialSave_alike {year save save' : Int}
    (h : SpansAlike policies policies' seen shift z.spans z'.spans)
    (hseen : seen.Has (Year.firstSecond year))
    (hsave : z.initialSave year = .ok save)
    (hsave' : z'.initialSave year = .ok save') :
    ∃ date : Date, date.year = year ∧ date.month = 1 ∧ date.day = 1 ∧
      ∃ s ∈ z.spans, s.contains (date.unixSeconds 0) ∧
        s.era.SavesBefore policies ⟨date, 1⟩ save ∧
        s.era.SavesBefore policies' ⟨date, 1⟩ save' := by
  unfold initialSave at hsave hsave'
  cases hdate : Date.ofParts? year 1 1 with
  | none =>
    rw [hdate] at hsave
    cases hsave
  | some date =>
    obtain ⟨⟨hyear, hmonth, hday⟩, _⟩ := Date.ofParts?_eq_some_iff.1 hdate
    rw [hdate] at hsave hsave'
    dsimp only at hsave hsave'
    have hinstant := Date.unixSeconds_first hmonth hday
    rw [hyear] at hinstant
    have hrel := h.rel_find? (hinstant ▸ hseen)
    cases hfind : z.spans.find? fun s => s.contains (date.unixSeconds 0) with
    | none =>
      rw [hfind] at hsave
      cases hsave
    | some s =>
      cases hfind' : z'.spans.find? fun s => s.contains (date.unixSeconds 0) with
      | none =>
        rw [hfind'] at hsave'
        cases hsave'
      | some s' =>
        rw [hfind] at hsave hrel
        rw [hfind'] at hsave' hrel
        have hs : s.Alike policies policies' seen s' := by
          cases hrel with
          | some hs => exact hs
        have hcontains := List.find?_some hfind
        have hbefore := (hs.isOf.saveBefore_eq_ok_iff _).1 hsave
        have hbefore' := (hs.isOf'.saveBefore_eq_ok_iff _).1 hsave'
        exact ⟨date, hyear, hmonth, hday, s, List.mem_of_find?_eq_some hfind,
          hcontains, hbefore, hbefore'.congr hs.saving.symm⟩

theorem ZoneReplay.ofYears_window_eq
    (h : SpansAlike policies policies' seen shift z.spans z'.spans)
    (hlt : w.start < w.stop)
    (hseen : seen.Has (Year.firstSecond (w.start - 1)))
    (hfirst : ∀ date : Date, date.year = w.start - 1 → date.month = 1 →
      date.day = 1 → ∀ s ∈ z.spans, s.contains (date.unixSeconds 0) →
      ∀ save save', s.era.SavesBefore policies ⟨date, 1⟩ save →
        s.era.SavesBefore policies' ⟨date, 1⟩ save' → save = save')
    (hsaves : ∀ s ∈ z.spans, ∀ save, s.era.CanSave policies save → S save)
    (hyears : ∀ year, w.start - 1 ≤ year → year ≤ w.stop →
      ∀ bounds, yearBounds? year = some bounds → seen.Reaches bounds ∧
        ∀ s ∈ z.spans, s.isActive bounds →
          s.AgreesIn policies policies' seen S bounds year)
    (hfault : (z.window w).fault = none) (hfault' : (z'.window w).fault = none) :
    BufferSize.ofYears (w.start - 1) (z.window w).years =
      BufferSize.ofYears (w.start - 1) (z'.window w).years := by
  obtain ⟨save, hsave, _⟩ := window_of_fault_eq_none hlt hfault
  obtain ⟨save', hsave', _⟩ := window_of_fault_eq_none hlt hfault'
  obtain ⟨date, hyear, hmonth, hday, s, hs, hcontains, hbefore, hbefore'⟩ :=
    initialSave_alike h hseen hsave hsave'
  obtain rfl : save = save' :=
    hfirst date hyear hmonth hday s hs hcontains _ _ hbefore hbefore'
  apply BufferSize.ofYears_eq
  unfold window at hfault hfault' ⊢
  rw [hsave] at hfault ⊢
  rw [hsave'] at hfault' ⊢
  dsimp only at hfault hfault' ⊢
  apply map_need_years h _ (hsaves s hs _ hbefore.canSave) hfault hfault' rfl
  intro year hfrom hto
  exact hyears year hfrom (by omega)

end Replays

end ZoneTables
