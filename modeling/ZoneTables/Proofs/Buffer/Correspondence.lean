import Mathlib.Data.List.SplitBy
import ZoneTables.Buffer.Replay
import ZoneTables.Proofs.Choice
import ZoneTables.Proofs.Sort

/-!
# Candidates that correspond

Candidates of two replays can differ in the positions of their eras and rules.
As long as the positions are in the same order, the same candidates win, and
the same saving is carried on.
-/

namespace ZoneTables

/-! ## Lists whose elements correspond -/

section Lists

variable {α β : Type} {R : α → β → Prop} {l : List α} {l' : List β}

theorem forall₂_splitBy {r : α → α → Bool} {r' : β → β → Bool}
    (hr : ∀ a a' b b', R a b → R a' b' → r a a' = r' b b')
    (h : List.Forall₂ R l l') :
    List.Forall₂ (List.Forall₂ R) (l.splitBy r) (l'.splitBy r') := by
  have hloop : ∀ {l : List α} {l' : List β}, List.Forall₂ R l l' →
      ∀ {a b g g' gs gs'}, R a b → List.Forall₂ R g g' →
        List.Forall₂ (List.Forall₂ R) gs gs' →
        List.Forall₂ (List.Forall₂ R) (List.splitBy.loop r l a g gs)
          (List.splitBy.loop r' l' b g' gs') := by
    intro l l' h
    induction h with
    | nil =>
      intro a b g g' gs gs' hab hg hgs
      simp only [List.splitBy.loop]
      apply List.rel_reverse
      exact .cons (List.rel_reverse (.cons hab hg)) hgs
    | @cons c d l l' hcd _ ih =>
      intro a b g g' gs gs' hab hg hgs
      simp only [List.splitBy.loop]
      rw [hr a c b d hab hcd]
      split
      · exact ih hcd (.cons hab hg) hgs
      · exact ih hcd .nil (.cons (List.rel_reverse (.cons hab hg)) hgs)
  cases h with
  | nil => exact .nil
  | cons hab hl => exact hloop hl hab .nil .nil

theorem rel_getLast? (h : List.Forall₂ R l l') :
    Option.Rel R l.getLast? l'.getLast? := by
  have hreverse := List.rel_reverse h
  rw [List.getLast?_eq_head?_reverse, List.getLast?_eq_head?_reverse]
  generalize l.reverse = r at hreverse
  generalize l'.reverse = r' at hreverse
  cases hreverse with
  | nil => exact .none
  | cons hab _ => exact .some hab

theorem rel_bind {γ δ : Type} {Q : γ → δ → Prop} {x : Option α} {y : Option β}
    {f : α → Option γ} {f' : β → Option δ}
    (hf : ∀ a b, R a b → Option.Rel Q (f a) (f' b)) (h : Option.Rel R x y) :
    Option.Rel Q (x.bind f) (y.bind f') := by
  cases h with
  | none => exact .none
  | some hab => exact hf _ _ hab

end Lists

/-! ## Candidates -/

/-- Whether positions that correspond are in the same order, for each policy. -/
def KeepsOrder (R : String → Origin → Origin → Prop) : Prop :=
  ∀ name a a' b b', R name a b → R name a' b' →
    a.isBefore a' = b.isBefore b'

structure Candidate.Alike (R : String → Origin → Origin → Prop)
    (c c' : Candidate) : Prop where
  instant : c.instant = c'.instant
  policy : c.policy = c'.policy
  save : c.save = c'.save
  origin : R c.policy c.origin c'.origin

namespace Candidate

variable {R : String → Origin → Origin → Prop} {cs cs' : List Candidate}

theorem winsOver_eq (hR : KeepsOrder R) {c c' d d' : Candidate}
    (hc : c.Alike R c') (hd : d.Alike R d') :
    c.winsOver d = c'.winsOver d' := by
  unfold winsOver
  rw [← hc.policy, ← hd.policy]
  by_cases hsame : c.policy = d.policy
  · have hd' := hd.origin
    rw [← hsame] at hd'
    rw [if_pos hsame, if_pos hsame, hR _ _ _ _ _ hc.origin hd']
  · rw [if_neg hsame, if_neg hsame]

theorem forall₂_inOrder (h : List.Forall₂ (Alike R) cs cs') :
    List.Forall₂ (Alike R) (inOrder cs) (inOrder cs') :=
  forall₂_sortByKey (fun _ _ hc => hc.instant) h

theorem saveAfter_eq (hR : KeepsOrder R) (h : List.Forall₂ (Alike R) cs cs')
    (save : Int) : saveAfter save cs = saveAfter save cs' := by
  have hgroups : List.Forall₂ (List.Forall₂ (Alike R)) (groups cs)
      (groups cs') := by
    apply forall₂_splitBy _ h
    intro a a' b b' ha hb
    rw [ha.instant, hb.instant]
  have hwinner : Option.Rel (Alike R) ((groups cs).getLast?.bind winner?)
      ((groups cs').getLast?.bind winner?) := by
    apply rel_bind _ (rel_getLast? hgroups)
    intro group group' hgroup
    apply rel_choose? _ hgroup
    exact fun _ _ _ _ => winsOver_eq hR
  unfold saveAfter
  generalize (groups cs).getLast?.bind winner? = x at hwinner
  generalize (groups cs').getLast?.bind winner? = x' at hwinner
  cases hwinner with
  | none => rfl
  | some hc => exact hc.save

theorem mem_of_mem_groups {cs group : List Candidate}
    (hgroup : group ∈ groups cs) {c : Candidate} (hc : c ∈ group) : c ∈ cs := by
  rw [← List.flatten_splitBy (fun a b => a.instant == b.instant) cs]
  exact List.mem_flatten.2 ⟨group, hgroup, hc⟩

theorem saveAfter_mem (save : Int) (cs : List Candidate) :
    saveAfter save cs = save ∨ ∃ c ∈ cs, saveAfter save cs = c.save := by
  unfold saveAfter
  cases hwinner : (groups cs).getLast?.bind winner? with
  | none => exact .inl rfl
  | some c =>
    right
    obtain ⟨group, hgroup, hc⟩ := Option.bind_eq_some_iff.1 hwinner
    exact ⟨c, mem_of_mem_groups (List.mem_of_getLast? hgroup) (choose?_mem hc),
      rfl⟩

end Candidate

/-! ## Occurrences -/

structure Stretch where
  start : Int
  stop : Int

def Stretch.Has (seen : Stretch) (instant : Int) : Prop :=
  seen.start ≤ instant ∧ instant < seen.stop

/-- Whether occurrences differ in corresponding positions, and in spans that
hold the same instants of a stretch, only.  The spans of the latter stand
further back by so many places. -/
structure Pending.Alike (seen : Stretch) (R : String → Origin → Origin → Prop)
    (shift : Nat) (p p' : Pending) : Prop where
  rule : p.rule = p'.rule
  seconds : p.seconds = p'.seconds
  stdOffset : p.active.span.era.stdOffset = p'.active.span.era.stdOffset
  policyName : p.active.span.policyName = p'.active.span.policyName
  origin : R p.active.span.policyName (.rule p.index) (.rule p'.index)
  contains : ∀ instant, seen.Has instant →
    p.active.span.contains instant = p'.active.span.contains instant
  index : p'.active.index = p.active.index + shift
  start : p.active.start.map (·.save) = p'.active.start.map (·.save)

/-- Whether the savings of an occurrence are among given ones, any of which
puts it at an instant of a stretch. -/
structure Pending.StaysIn (seen : Stretch) (S : Int → Prop) (p : Pending) :
    Prop where
  rule : S p.rule.save
  start : ∀ c, p.active.start = some c → S c.save
  instant : ∀ save, S save → seen.Has (p.candidate save).instant

namespace Pending

variable {seen : Stretch} {R : String → Origin → Origin → Prop} {shift : Nat}
  {S : Int → Prop} {p p' : Pending} {ps ps' : List Pending} {save : Int}

theorem StaysIn.saveBefore (h : p.StaysIn seen S) (hsave : S save)
    (previous : Option Nat) : S (p.saveBefore save previous) := by
  unfold Pending.saveBefore
  split
  · exact hsave
  · cases hstart : p.active.start with
    | none => exact hsave
    | some c => exact h.start c hstart

theorem Alike.saveBefore_eq (h : p.Alike seen R shift p') (save : Int)
    (previous : Option Nat) :
    p.saveBefore save previous =
      p'.saveBefore save (previous.map (· + shift)) := by
  have hsame : previous.map (· + shift) = some p'.active.index ↔
      previous = some p.active.index := by
    cases previous with
    | none => simp
    | some n => simp [h.index]
  unfold saveBefore
  rw [h.start]
  simp only [hsame]

theorem Alike.candidate (h : p.Alike seen R shift p') (save : Int) :
    (p.candidate save).Alike R (p'.candidate save) where
  instant := by
    unfold Pending.candidate
    rw [h.rule, h.seconds, h.stdOffset]
  policy := h.policyName
  save := congrArg Rule.save h.rule
  origin := h.origin

/-- Occurrences that correspond make candidates that do, if none of them can
leave the stretch in which their spans are the same. -/
theorem forall₂_candidates (h : List.Forall₂ (Alike seen R shift) ps ps')
    (hstays : ∀ p ∈ ps, p.StaysIn seen S) :
    ∀ {save previous}, S save →
      List.Forall₂ (Candidate.Alike R) (candidates save previous ps)
        (candidates save (previous.map (· + shift)) ps') := by
  induction h with
  | nil => exact fun _ => .nil
  | @cons p p' ps ps' hp _ ih =>
    intro save previous hsave
    rw [List.forall_mem_cons] at hstays
    have hbefore := hstays.1.saveBefore hsave previous
    have hin := hstays.1.instant _ hbefore
    have hcandidate := hp.candidate (p.saveBefore save previous)
    have hprevious : some p'.active.index =
        (some p.active.index).map (· + shift) := by
      simp [hp.index]
    rw [candidates, candidates, ← hp.saveBefore_eq, ← hcandidate.instant,
      ← hp.contains _ hin, ← hcandidate.save, hprevious]
    split
    · exact .cons hcandidate (ih hstays.2 hstays.1.rule)
    · exact ih hstays.2 hbefore

theorem save_of_mem_candidates {c : Candidate} :
    ∀ {save previous}, c ∈ candidates save previous ps →
      ∃ p ∈ ps, c.save = p.rule.save := by
  induction ps with
  | nil => exact fun hc => absurd hc List.not_mem_nil
  | cons p ps ih =>
    intro save previous hc
    rw [candidates] at hc
    split at hc
    · rcases List.mem_cons.1 hc with rfl | hc
      · exact ⟨p, List.mem_cons_self, rfl⟩
      · exact (ih hc).imp fun q hq => ⟨List.mem_cons_of_mem _ hq.1, hq.2⟩
    · exact (ih hc).imp fun q hq => ⟨List.mem_cons_of_mem _ hq.1, hq.2⟩

theorem forall₂_inOrder (h : List.Forall₂ (Alike seen R shift) ps ps') :
    List.Forall₂ (Alike seen R shift) (inOrder ps) (inOrder ps') := by
  apply forall₂_sortByKey _ h
  intro p p' hp
  unfold standardSeconds
  rw [hp.seconds, hp.stdOffset]

end Pending

end ZoneTables
