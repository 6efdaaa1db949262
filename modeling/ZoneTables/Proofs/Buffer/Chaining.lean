import ZoneTables.Proofs.Buffer.Alike
import ZoneTables.Proofs.Database.Made

/-!
# The saving that occurrences are converted with

A pass over the occurrences of a year converts each with the saving that was put
in force last: by the occurrence before it that takes effect in its span, or by
the start of its own span whenever the pass comes back to a span that starts in
the year.  The pass goes by standard time and passes occurrences that lie outside
their spans, so that what was put in force last need not be the candidate that
takes effect before.
-/

namespace ZoneTables

def savingAfter (carried : Int) (last : Option Candidate) : Int :=
  (last.map (·.save)).getD carried

def Candidate.predecessor? (cs : List Candidate) (c : Candidate) :
    Option Candidate :=
  (cs.takeWhile fun b => decide (b ≠ c)).getLast?

/-- An occurrence that takes effect in its span, with the candidate that was put
in force last when it was converted. -/
structure Passed where
  pending : Pending
  setter : Option Candidate

namespace Passed

variable (carried : Int) (cs : List Candidate) (x : Passed)

def candidate : Candidate :=
  x.pending.candidate (savingAfter carried x.setter)

def predecessor? : Option Candidate :=
  Candidate.predecessor? cs (x.candidate carried)

def IsChained : Prop :=
  (x.candidate carried).instant = x.pending.seconds -
    (x.pending.active.span.era.stdOffset +
      savingAfter carried (x.predecessor? carried cs))

/-- Whether what was put in force last lies before an occurrence, and nothing
else lies between them. -/
structure FollowsOn : Prop where
  before : ∀ a ∈ x.setter, a.instant < (x.candidate carried).instant
  next : ∀ b ∈ cs, b.instant < (x.candidate carried).instant →
    ∃ a ∈ x.setter, b.instant ≤ a.instant

end Passed

namespace Pending

def setterBefore (setter : Option Candidate) (previous : Option Nat)
    (p : Pending) : Option Candidate :=
  if previous = some p.active.index then setter else p.active.start.or setter

def passed (carried : Int) (setter : Option Candidate)
    (previous : Option Nat) : List Pending → List Passed
  | [] => []
  | p :: rest =>
    let x : Passed := ⟨p, p.setterBefore setter previous⟩
    let c := x.candidate carried
    if p.active.span.contains c.instant then
      x :: passed carried (some c) (some p.active.index) rest
    else passed carried x.setter (some p.active.index) rest

def pass (carried : Int) (ps : List Pending) : List Passed :=
  passed carried none none ps

/-- Whether ordered occurrences lie so far apart in standard time that neither
offsets nor savings within a bound change their order. -/
structure FarApart (bound : Nat) (carried : Int) (ps : List Pending) : Prop where
  carried : carried.natAbs ≤ bound
  amounts : ∀ p ∈ ps, p.rule.save.natAbs ≤ bound ∧
    p.active.span.era.stdOffset.natAbs ≤ bound
  apart : ps.Pairwise fun p q =>
    p.standardSeconds + 2 * (bound : Int) < q.standardSeconds

instance (bound : Nat) (carried : Int) (ps : List Pending) :
    Decidable (FarApart bound carried ps) :=
  decidable_of_iff
    (carried.natAbs ≤ bound ∧
      (∀ p ∈ ps, p.rule.save.natAbs ≤ bound ∧
        p.active.span.era.stdOffset.natAbs ≤ bound) ∧
      ps.Pairwise fun p q =>
        p.standardSeconds + 2 * (bound : Int) < q.standardSeconds)
    ⟨fun h => ⟨h.1, h.2.1, h.2.2⟩, fun h => ⟨h.carried, h.amounts, h.apart⟩⟩

/-! ## The pass -/

section Pass

variable {carried : Int} {setter : Option Candidate} {previous : Option Nat}
  {p : Pending} {ps : List Pending} {x : Passed}

theorem saveBefore_eq (setter : Option Candidate) (previous : Option Nat)
    (p : Pending) :
    p.saveBefore (savingAfter carried setter) previous =
      savingAfter carried (p.setterBefore setter previous) := by
  unfold saveBefore setterBefore
  split
  · rfl
  · cases p.active.start <;> rfl

theorem passed_cons_of_contains (hx : x = ⟨p, p.setterBefore setter previous⟩)
    (hin : p.active.span.contains (x.candidate carried).instant) :
    passed carried setter previous (p :: ps) =
      x :: passed carried (some (x.candidate carried)) (some p.active.index) ps := by
  subst hx
  exact if_pos hin

theorem passed_cons_of_not_contains
    (hx : x = ⟨p, p.setterBefore setter previous⟩)
    (hout : ¬ p.active.span.contains (x.candidate carried).instant) :
    passed carried setter previous (p :: ps) =
      passed carried x.setter (some p.active.index) ps := by
  subst hx
  exact if_neg hout

theorem candidates_eq (carried : Int) (setter : Option Candidate)
    (previous : Option Nat) (ps : List Pending) :
    candidates (savingAfter carried setter) previous ps =
      (passed carried setter previous ps).map (·.candidate carried) := by
  induction ps generalizing setter previous with
  | nil => rfl
  | cons p rest ih =>
    obtain ⟨x, hx⟩ : ∃ x : Passed, x = ⟨p, p.setterBefore setter previous⟩ :=
      ⟨_, rfl⟩
    have hcandidate : p.candidate (savingAfter carried
        (p.setterBefore setter previous)) = x.candidate carried := by
      rw [hx]
      rfl
    rw [candidates, saveBefore_eq, hcandidate]
    by_cases hin : p.active.span.contains (x.candidate carried).instant
    · rw [if_pos hin, passed_cons_of_contains hx hin, List.map_cons, ← ih]
      rfl
    · rw [if_neg hin, passed_cons_of_not_contains hx hin, ← ih, hx]

theorem mem_setterBefore {a : Candidate}
    (h : a ∈ p.setterBefore setter previous) :
    a ∈ setter ∨ a ∈ p.active.start := by
  unfold setterBefore at h
  split at h
  · exact .inl h
  · rcases Option.or_eq_some_iff.1 h with h | ⟨_, h⟩
    · exact .inr h
    · exact .inl h

/-- What is put in force before an occurrence is the start of a span or another
occurrence that takes effect. -/
theorem setter_of_mem_passed (hx : x ∈ passed carried setter previous ps) :
    ∀ a ∈ x.setter, a ∈ setter ∨ (∃ p ∈ ps, a ∈ p.active.start) ∨
      a ∈ (passed carried setter previous ps).map (·.candidate carried) := by
  -- the candidate in force at the beginning of the pass changes with each step
  induction ps generalizing setter previous with
  | nil => cases hx
  | cons p rest ih =>
    intro a ha
    obtain ⟨y, hy⟩ : ∃ y : Passed, y = ⟨p, p.setterBefore setter previous⟩ :=
      ⟨_, rfl⟩
    have hsetter : a ∈ y.setter →
        a ∈ setter ∨ ∃ q ∈ p :: rest, a ∈ q.active.start := by
      intro h
      rw [hy] at h
      exact (mem_setterBefore h).imp_right fun h => ⟨p, List.mem_cons_self, h⟩
    by_cases hin : p.active.span.contains (y.candidate carried).instant
    · rw [passed_cons_of_contains hy hin] at hx ⊢
      rw [List.map_cons]
      rcases List.mem_cons.1 hx with rfl | hx
      · exact (hsetter ha).imp_right .inl
      · rcases ih hx a ha with h | ⟨q, hq, h⟩ | h
        · cases h
          exact .inr (.inr List.mem_cons_self)
        · exact .inr (.inl ⟨q, List.mem_cons_of_mem p hq, h⟩)
        · exact .inr (.inr (List.mem_cons_of_mem _ h))
    · rw [passed_cons_of_not_contains hy hin] at hx ⊢
      rcases ih hx a ha with h | ⟨q, hq, h⟩ | h
      · exact (hsetter h).imp_right .inl
      · exact .inr (.inl ⟨q, List.mem_cons_of_mem p hq, h⟩)
      · exact .inr (.inr h)

theorem setter_eq_of_passed_eq (hstart : ∀ p ∈ ps, p.active.start = none)
    {front back : List Passed}
    (h : passed carried setter previous ps = front ++ x :: back) :
    x.setter = (front.getLast?.map (·.candidate carried)).or setter := by
  induction ps generalizing setter previous front with
  | nil => exact absurd h.symm (by simp [passed])
  | cons p rest ih =>
    rw [List.forall_mem_cons] at hstart
    have hsetter : p.setterBefore setter previous = setter := by
      unfold setterBefore
      rw [hstart.1, Option.none_or, ite_self]
    obtain ⟨y, hy⟩ : ∃ y : Passed, y = ⟨p, p.setterBefore setter previous⟩ :=
      ⟨_, rfl⟩
    by_cases hin : p.active.span.contains (y.candidate carried).instant
    · rw [passed_cons_of_contains hy hin] at h
      cases front with
      | nil =>
        cases h
        rw [hy, hsetter]
        rfl
      | cons z front =>
        rw [List.cons_append, List.cons.injEq] at h
        rw [ih hstart.2 h.2, ← h.1]
        cases front <;> simp [List.getLast?_cons]
    · rw [passed_cons_of_not_contains hy hin] at h
      rw [ih hstart.2 h, hy, hsetter]

theorem pending_passed_sublist (carried : Int) (setter : Option Candidate)
    (previous : Option Nat) (ps : List Pending) :
    ((passed carried setter previous ps).map (·.pending)).Sublist ps := by
  induction ps generalizing setter previous with
  | nil => exact .slnil
  | cons p rest ih =>
    obtain ⟨x, hx⟩ : ∃ x : Passed, x = ⟨p, p.setterBefore setter previous⟩ :=
      ⟨_, rfl⟩
    by_cases hin : p.active.span.contains (x.candidate carried).instant
    · rw [passed_cons_of_contains hx hin, List.map_cons, hx]
      exact (ih _ _).cons_cons p
    · rw [passed_cons_of_not_contains hx hin]
      exact (ih _ _).cons p

theorem natAbs_instant_sub_le {bound : Nat} {save : Int}
    (hsave : save.natAbs ≤ bound)
    (hoffset : p.active.span.era.stdOffset.natAbs ≤ bound) :
    ((p.candidate save).instant - p.standardSeconds).natAbs ≤ bound := by
  unfold candidate standardSeconds TimeFrame.offset
  cases p.rule.frame with
  | wall => dsimp only; omega
  | standard => dsimp only; omega
  | utc => dsimp only; omega

theorem FarApart.pairwise_pass {bound : Nat} (h : FarApart bound carried ps)
    (hstart : ∀ p ∈ ps, p.active.start = none) :
    ((pass carried ps).map (·.candidate carried)).Pairwise
      fun a b => a.instant < b.instant := by
  have hsublist := pending_passed_sublist carried none none ps
  have hpending : ∀ x ∈ pass carried ps, x.pending ∈ ps :=
    fun x hx => hsublist.subset (List.mem_map_of_mem hx)
  have hsaving : ∀ x ∈ pass carried ps,
      (savingAfter carried x.setter).natAbs ≤ bound := by
    intro x hx
    cases hsetter : x.setter with
    | none => exact h.carried
    | some a =>
      rcases setter_of_mem_passed hx a hsetter with hnone | ⟨p, hp, ha⟩ | hrule
      · cases hnone
      · rw [hstart p hp] at ha
        cases ha
      · obtain ⟨y, hy, rfl⟩ := List.mem_map.1 hrule
        exact (h.amounts y.pending (hpending y hy)).1
  have hnear : ∀ x ∈ pass carried ps,
      ((x.candidate carried).instant - x.pending.standardSeconds).natAbs ≤
        bound := fun x hx =>
    natAbs_instant_sub_le (hsaving x hx) (h.amounts x.pending (hpending x hx)).2
  rw [List.pairwise_map]
  refine (List.pairwise_map.1 (h.apart.sublist hsublist)).imp_of_mem ?_
  intro x y hx hy hxy
  have hnearX := hnear x hx
  have hnearY := hnear y hy
  omega

end Pass

end Pending

/-! ## Candidates in order -/

namespace Candidate

variable {cs front back : List Candidate} {c : Candidate}

theorem predecessor?_append (hc : c ∉ front) :
    predecessor? (front ++ c :: back) c = front.getLast? := by
  unfold predecessor?
  rw [List.takeWhile_append_of_pos, List.takeWhile_cons_of_neg,
    List.append_nil]
  · simp
  · intro b hb
    rw [decide_eq_true_eq]
    rintro rfl
    exact hc hb

theorem eq_predecessor?_iff
    (hcs : cs.Pairwise fun a b => a.instant < b.instant) (hc : c ∈ cs)
    {o : Option Candidate} (ho : ∀ a ∈ o, a ∈ cs) :
    o = predecessor? cs c ↔ (∀ a ∈ o, a.instant < c.instant) ∧
      ∀ b ∈ cs, b.instant < c.instant → ∃ a ∈ o, b.instant ≤ a.instant := by
  obtain ⟨front, back, rfl⟩ := List.append_of_mem hc
  obtain ⟨hfront, hback, hcross⟩ := List.pairwise_append.1 hcs
  have hlt : ∀ b ∈ front, b.instant < c.instant :=
    fun b hb => hcross b hb c List.mem_cons_self
  have hmem : ∀ b ∈ front ++ c :: back, b.instant < c.instant → b ∈ front := by
    intro b hb hbc
    rcases List.mem_append.1 hb with hb | hb
    · exact hb
    · rcases List.mem_cons.1 hb with rfl | hb
      · exact absurd hbc (Int.lt_irrefl _)
      · exact absurd ((List.pairwise_cons.1 hback).1 b hb) (by omega)
  rw [predecessor?_append fun h => Int.lt_irrefl _ (hlt c h)]
  -- what lies before `c` is what stands in front of it, and the last of that is
  -- the only candidate that nothing there lies after
  rcases List.eq_nil_or_concat front with rfl | ⟨front, last, rfl⟩
  · constructor
    · rintro rfl
      exact ⟨nofun, fun b hb hbc => absurd (hmem b hb hbc) List.not_mem_nil⟩
    · rintro ⟨hbefore, _⟩
      refine Option.eq_none_iff_forall_not_mem.2 fun a ha => ?_
      exact List.not_mem_nil (hmem a (ho a ha) (hbefore a ha))
  · rw [List.concat_eq_append] at *
    rw [List.getLast?_concat]
    obtain ⟨_, _, hlast⟩ := List.pairwise_append.1 hfront
    have hle : ∀ b ∈ front ++ [last], b.instant ≤ last.instant := by
      intro b hb
      rcases List.mem_append.1 hb with hb | hb
      · exact Int.le_of_lt (hlast b hb last List.mem_cons_self)
      · exact Int.le_of_eq (by rw [List.mem_singleton.1 hb])
    constructor
    · rintro rfl
      refine ⟨fun a ha => ?_, fun b hb hbc => ⟨last, rfl, hle b (hmem b hb hbc)⟩⟩
      cases ha
      exact hlt last (List.mem_append_right _ List.mem_cons_self)
    · rintro ⟨hbefore, hnext⟩
      have hlastMem : last ∈ front ++ [last] :=
        List.mem_append_right _ List.mem_cons_self
      obtain ⟨a, ha, hla⟩ := hnext last (List.mem_append_left _ hlastMem)
        (hlt last hlastMem)
      rw [Option.mem_def.1 ha]
      rcases List.mem_append.1 (hmem a (ho a ha) (hbefore a ha)) with hfa | hfa
      · exact absurd (hlast a hfa last List.mem_cons_self) (by omega)
      · rw [List.mem_singleton.1 hfa]

end Candidate

/-- Without spans that start, what is put in force before an occurrence is the
candidate in front of it if the pass finds the candidates in their order. -/
theorem Pending.setter_eq_predecessor? {carried : Int} {ps : List Pending}
    {x : Passed} (hstart : ∀ p ∈ ps, p.active.start = none)
    (hascend : ((pass carried ps).map (·.candidate carried)).Pairwise
      fun a b => a.instant < b.instant)
    (hx : x ∈ pass carried ps) :
    x.setter = x.predecessor? carried
      ((pass carried ps).map (·.candidate carried)) := by
  obtain ⟨front, back, hsplit⟩ := List.append_of_mem hx
  rw [hsplit, List.map_append, List.map_cons] at hascend ⊢
  have hfront : x.candidate carried ∉ front.map (·.candidate carried) := by
    intro hin
    exact Int.lt_irrefl _ ((List.pairwise_append.1 hascend).2.2 _ hin _
      List.mem_cons_self)
  rw [Passed.predecessor?, Candidate.predecessor?_append hfront,
    List.getLast?_map, setter_eq_of_passed_eq hstart hsplit, Option.or_none]

theorem Passed.isChained_iff_saving {carried : Int} {cs : List Candidate}
    {x : Passed} (hwall : x.pending.rule.frame = .wall) :
    x.IsChained carried cs ↔ savingAfter carried x.setter =
      savingAfter carried (x.predecessor? carried cs) := by
  have hinstant : (x.candidate carried).instant = x.pending.seconds -
      (x.pending.active.span.era.stdOffset + savingAfter carried x.setter) := by
    unfold candidate Pending.candidate
    rw [hwall]
    rfl
  unfold IsChained
  rw [hinstant]
  omega

/-! ## Years -/

namespace ZoneReplay

def occurrences (z : ZoneReplay) (year : Int) :
    Except BufferError (List Candidate × List Pending) :=
  match yearBounds? year with
  | none => .error (z.noActiveEra year)
  | some bounds => do
    let (starts, pending) ← z.collect year bounds
      (z.spans.zipIdx.filter fun p => p.1.isActive bounds)
    return (starts, Pending.inOrder pending)

variable {z : ZoneReplay} {year carried : Int} {cs starts : List Candidate}
  {pending : List Pending}

theorem Collects.occurrences_eq (h : z.Collects year starts pending) :
    z.occurrences year = .ok (starts, Pending.inOrder pending) := by
  obtain ⟨bounds, hbounds, _, hcollect⟩ := h
  unfold occurrences
  rw [hbounds]
  dsimp only
  rw [hcollect]
  rfl

theorem Collects.mem_starts (h : z.Collects year starts pending) :
    ∀ p ∈ pending, ∀ c ∈ p.active.start, c ∈ starts := by
  obtain ⟨bounds, _, _, hcollect⟩ := h
  generalize z.spans.zipIdx.filter (fun p => p.1.isActive bounds) = l at hcollect
  induction l generalizing starts pending with
  | nil =>
    cases hcollect
    exact List.forall_mem_nil _
  | cons p l ih =>
    rw [collect] at hcollect
    obtain ⟨a, _, hcollect⟩ := except_bind_eq_ok.1 hcollect
    obtain ⟨qs, hqs, hcollect⟩ := except_bind_eq_ok.1 hcollect
    obtain ⟨⟨more, rest⟩, hmore, heq⟩ := except_bind_eq_ok.1 hcollect
    cases heq
    intro q hq c hc
    rcases List.mem_append.1 hq with hq | hq
    · refine List.mem_append_left _ (Option.mem_toList.2 ?_)
      rcases ActiveSpan.eq_of_pending hqs with ⟨_, rfl⟩ | ⟨_, _, hall⟩
      · cases hq
      · obtain ⟨_, _, _, _, rfl⟩ := forall₂_exists_left hall hq
        exact hc
    · exact List.mem_append_right _ (ih hmore q hq c hc)

theorem perm_of_occurrences {ps : List Pending}
    (h : z.candidates year carried = .ok cs)
    (hps : z.occurrences year = .ok (starts, ps)) :
    cs.Perm (starts ++ (Pending.pass carried ps).map (·.candidate carried)) := by
  obtain ⟨starts', pending, hcollects, rfl⟩ := candidates_eq_ok.1 h
  cases hcollects.occurrences_eq.symm.trans hps
  have hcandidates := Pending.candidates_eq carried none none
    (Pending.inOrder pending)
  unfold Pending.pass
  rw [← hcandidates]
  exact sortByKey_perm _

theorem pairwise_lt_of_candidates (h : z.candidates year carried = .ok cs)
    (hdistinct : cs.Pairwise fun a b => a.instant ≠ b.instant) :
    cs.Pairwise fun a b => a.instant < b.instant := by
  obtain ⟨_, _, _, rfl⟩ := candidates_eq_ok.1 h
  exact ((pairwise_sortByKey _).and hdistinct).imp Int.lt_iff_le_and_ne.2

/-- In a year whose candidates have instants of their own, the candidates of rules
are those of the occurrences that the pass finds in their spans.  Such an occurrence
on the wall clock is converted with the saving of the candidate in front of it
exactly if what was put in force last has the same saving.  It is that candidate
exactly if it lies before the occurrence and nothing else does after it, and always
in a year in which no span starts and the occurrences lie far apart. -/
theorem isChained_iff (h : z.candidates year carried = .ok cs)
    (hdistinct : cs.Pairwise fun a b => a.instant ≠ b.instant) :
    ∃ starts ps, z.occurrences year = .ok (starts, ps) ∧
      cs.Perm (starts ++
        (Pending.pass carried ps).map (·.candidate carried)) ∧
      (∀ x ∈ Pending.pass carried ps,
        (x.pending.rule.frame = .wall →
          (x.IsChained carried cs ↔
            savingAfter carried x.setter =
              savingAfter carried (x.predecessor? carried cs))) ∧
        (x.setter = x.predecessor? carried cs ↔ x.FollowsOn carried cs)) ∧
      (starts = [] → (∃ bound, Pending.FarApart bound carried ps) →
        ∀ x ∈ Pending.pass carried ps, x.pending.rule.frame = .wall →
          x.IsChained carried cs) := by
  have hlt := pairwise_lt_of_candidates h hdistinct
  obtain ⟨starts, pending, hcollects, _⟩ := candidates_eq_ok.1 h
  have hstarts : ∀ p ∈ Pending.inOrder pending, ∀ c ∈ p.active.start,
      c ∈ starts :=
    fun p hp => hcollects.mem_starts p (mem_sortByKey.1 hp)
  refine ⟨starts, _, hcollects.occurrences_eq, ?_⟩
  generalize hps : Pending.inOrder pending = ps at hstarts
  have hperm := perm_of_occurrences h (hps ▸ hcollects.occurrences_eq)
  have hmem : ∀ x ∈ Pending.pass carried ps, x.candidate carried ∈ cs :=
    fun x hx =>
      hperm.mem_iff.2 (List.mem_append_right _ (List.mem_map_of_mem hx))
  have hsetter : ∀ x ∈ Pending.pass carried ps, ∀ a ∈ x.setter, a ∈ cs := by
    intro x hx a ha
    rw [hperm.mem_iff, List.mem_append]
    rcases Pending.setter_of_mem_passed hx a ha with hnone | ⟨p, hp, hstart⟩ | hrule
    · cases hnone
    · exact .inl (hstarts p hp a hstart)
    · exact .inr hrule
  refine ⟨hperm, fun x hx => ⟨Passed.isChained_iff_saving, ?_⟩, ?_⟩
  · refine (Candidate.eq_predecessor?_iff hlt (hmem x hx) (hsetter x hx)).trans ?_
    exact ⟨fun h => ⟨h.1, h.2⟩, fun h => ⟨h.before, h.next⟩⟩
  · rintro rfl ⟨bound, hapart⟩ x hx hwall
    have hstart : ∀ p ∈ ps, p.active.start = none := fun p hp =>
      Option.eq_none_iff_forall_not_mem.2 fun c hc =>
        List.not_mem_nil (hstarts p hp c hc)
    have hascend := hapart.pairwise_pass hstart
    have heq : cs = (Pending.pass carried ps).map (·.candidate carried) := by
      refine List.Perm.eq_of_pairwise ?_ hlt hascend hperm
      exact fun a b _ _ hab hba => absurd hab (Int.lt_asymm hba)
    rw [Passed.isChained_iff_saving hwall, heq,
      ← Pending.setter_eq_predecessor? hstart hascend hx]

end ZoneReplay

def Database.replay? (db : Database) (zone : String) : Option ZoneReplay := do
  let eras ← db.zones.get? zone
  let spans ← (spans zone db.policies eras).toOption
  return ⟨zone, spans⟩

theorem Database.exists_spans_of_replay? {db : Database} {zone : String}
    {z : ZoneReplay} (h : db.replay? zone = some z) :
    ∃ eras, db.zones.get? zone = some eras ∧
      spans zone db.policies eras = .ok z.spans ∧ z.zone = zone := by
  obtain ⟨eras, heras, h⟩ := Option.bind_eq_some_iff.1 h
  obtain ⟨l, hl, h⟩ := Option.bind_eq_some_iff.1 h
  cases h
  exact ⟨eras, heras, except_toOption_eq_some.1 hl, rfl⟩

/-- A zone that follows a policy throughout, and one of which a second era starts
to follow the policy in the year. -/
def laterEraText : SourceText where
  name := "t"
  text := "R P 2000 o - Mar 1 0 1 D\n" ++
    "R P 2000 o - Jul 1 0 2 M\n" ++
    "R P 2000 o - Oct 1 0 0 S\n" ++
    "Z Y 2 P E%s\n" ++
    "Z Z 1 P E%s 2000 Feb 1\n" ++
    " 2 P F%s 2000 Sep 30 21:00u\n" ++
    " 0 - G\n"

theorem isChained_iff_laterEraText :
    ∃ db z cs ps, MadeFrom twoYears [laterEraText] db ∧
      db.replay? "Y" = some z ∧ z.candidates 2000 0 = .ok cs ∧
      (cs.Pairwise fun a b => a.instant ≠ b.instant) ∧
      z.occurrences 2000 = .ok ([], ps) ∧ Pending.FarApart 7200 0 ps ∧
      (Pending.pass 0 ps).map (·.pending.rule.letter) = ["D", "M", "S"] ∧
      ∀ x ∈ Pending.pass 0 ps,
        x.pending.rule.frame = .wall → x.IsChained 0 cs := by
  have hrun : (Source.empty.readTexts [] [laterEraText]).fault = none ∧
      ∃ db ∈ (Database.ofSource twoYears
        (Source.empty.readTexts [] [laterEraText]).source).result.toOption,
      ∃ z ∈ db.replay? "Y", ∃ cs ∈ (z.candidates 2000 0).toOption,
      (cs.Pairwise fun a b => a.instant ≠ b.instant) ∧
      ∃ found ∈ (z.occurrences 2000).toOption, found.1 = [] ∧
      Pending.FarApart 7200 0 found.2 ∧
      (Pending.pass 0 found.2).map (·.pending.rule.letter) =
        ["D", "M", "S"] := by
    decide +kernel
  obtain ⟨hread, db, hdb, z, hz, cs, hcs, hdistinct, ⟨starts, ps⟩, hps, hrun⟩ :=
    hrun
  obtain ⟨hnone, hapart, hrules⟩ := hrun
  rw [Option.mem_def, except_toOption_eq_some] at hdb hcs hps
  dsimp only at hnone hapart hrules
  subst hnone
  obtain ⟨starts, ps', hps', _, _, hchained⟩ :=
    ZoneReplay.isChained_iff hcs hdistinct
  cases hps.symm.trans hps'
  exact ⟨db, z, cs, ps, ⟨hread, hdb⟩, hz, hcs, hdistinct, hps, hapart, hrules,
    hchained rfl ⟨7200, hapart⟩⟩

/-- The second rule of the later era is converted with the saving at the start of
the era, because the pass comes back to it from the earlier one, and not with that
of the first rule, which is the candidate in front. -/
theorem not_isChained_laterEraText :
    ∃ db z cs starts ps, MadeFrom twoYears [laterEraText] db ∧
      db.replay? "Z" = some z ∧ z.initialSave 1999 = .ok 0 ∧
      z.Enters 1999 0 2000 0 ∧ z.candidates 2000 0 = .ok cs ∧
      (cs.Pairwise fun a b => a.instant ≠ b.instant) ∧
      z.occurrences 2000 = .ok (starts, ps) ∧
      ∃ x ∈ Pending.pass 0 ps, x.pending.rule.frame = .wall ∧
        x.candidate 0 ∈ cs ∧ savingAfter 0 x.setter = 0 ∧
        savingAfter 0 (x.predecessor? 0 cs) = 3600 ∧ ¬ x.IsChained 0 cs := by
  have hrun : (Source.empty.readTexts [] [laterEraText]).fault = none ∧
      ∃ db ∈ (Database.ofSource twoYears
        (Source.empty.readTexts [] [laterEraText]).source).result.toOption,
      ∃ z ∈ db.replay? "Z", ∃ cs ∈ (z.candidates 2000 0).toOption,
      (cs.Pairwise fun a b => a.instant ≠ b.instant) ∧
      ∃ found ∈ (z.occurrences 2000).toOption, ∃ x ∈ Pending.pass 0 found.2,
        x.pending.rule.frame = .wall ∧ savingAfter 0 x.setter = 0 ∧
        savingAfter 0 (x.predecessor? 0 cs) = 3600 := by
    decide +kernel
  have hbefore : ∃ db ∈ (Database.ofSource twoYears
        (Source.empty.readTexts [] [laterEraText]).source).result.toOption,
      ∃ z ∈ db.replay? "Z", (z.initialSave 1999).toOption = some 0 ∧
        (z.candidates 1999 0).toOption = some [] := by
    decide +kernel
  obtain ⟨hread, db, hdb, z, hz, cs, hcs, hdistinct, ⟨starts, ps⟩, hps, hrun⟩ :=
    hrun
  obtain ⟨x, hx, hwall, hsetter, hpredecessor⟩ := hrun
  obtain ⟨db', hdb', z', hz', hsave, hbefore⟩ := hbefore
  cases hdb.symm.trans hdb'
  cases hz.symm.trans hz'
  rw [Option.mem_def, except_toOption_eq_some] at hdb hcs hps
  rw [except_toOption_eq_some] at hsave hbefore
  have henters : z.Enters 1999 0 (1999 + 1) (Candidate.saveAfter 0 []) :=
    .step .start hbefore
  have hmem : x.candidate 0 ∈ cs :=
    (ZoneReplay.perm_of_occurrences hcs hps).mem_iff.2
      (List.mem_append_right _ (List.mem_map_of_mem hx))
  have hchained : ¬ x.IsChained 0 cs := by
    rw [Passed.isChained_iff_saving hwall, hsetter, hpredecessor]
    decide
  exact ⟨db, z, cs, starts, ps, ⟨hread, hdb⟩, hz, hsave, henters, hcs, hdistinct,
    hps, x, hx, hwall, hmem, hsetter, hpredecessor, hchained⟩

end ZoneTables
