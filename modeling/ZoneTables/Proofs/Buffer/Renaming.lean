import Mathlib.Logic.Equiv.Basic
import ZoneTables.Proofs.Buffer.Sizes
import ZoneTables.Proofs.Buffer.Ties

/-!
# Names of policies

Giving policies other names changes the names in reports of faults.  It changes
no size of a buffer, if the spans of no zone overlap: names are compared only
where candidates of different policies meet at one instant.
-/

namespace ZoneTables

variable {α β γ δ : Type}

/-! ## Other names -/

def NameMap.rename (f : String → String) (m : NameMap α) : NameMap α :=
  .ofList (m.entries.map fun p => (f p.1, p.2))

def Saving.rename (f : String → String) : Saving → Saving
  | standard => standard
  | fixed amount => fixed amount
  | policy name => policy (f name)

def Era.rename (f : String → String) (era : Era) : Era :=
  { era with saving := era.saving.rename f }

def BufferError.rename (f : String → String) : BufferError → BufferError
  | noActiveEra zone year => noActiveEra zone year
  | unknownPolicy zone policy => unknownPolicy zone (f policy)
  | emptyPolicy zone policy => emptyPolicy zone (f policy)
  | noPriorRule zone policy year => noPriorRule zone (f policy) year
  | invalidRuleDate policy year => invalidRuleDate (f policy) year
  | windowOutOfRange window => windowOutOfRange window
  | tooLarge size capacity zone year => tooLarge size capacity zone year

def NamedPolicy.rename (f : String → String) (p : NamedPolicy) : NamedPolicy :=
  ⟨f p.name, p.rules⟩

def Span.rename (f : String → String) (s : Span) : Span :=
  { s with
    era := s.era.rename f
    policy := s.policy.map (NamedPolicy.rename f) }

def ZoneReplay.rename (f : String → String) (z : ZoneReplay) : ZoneReplay :=
  ⟨z.zone, z.spans.map (Span.rename f)⟩

/-! ## Results that correspond -/

/-- Whether two computations give values that correspond, or both report the
same fault, the second with new names. -/
inductive ResultsAlike (f : String → String) (R : α → β → Prop) :
    Except BufferError α → Except BufferError β → Prop where
  | ok {a : α} {b : β} : R a b → ResultsAlike f R (.ok a) (.ok b)
  | error (e : BufferError) : ResultsAlike f R (.error e) (.error (e.rename f))

namespace ResultsAlike

variable {f : String → String} {R : α → β → Prop} {Q : γ → δ → Prop}

theorem bind {x : Except BufferError α} {y : Except BufferError β}
    {k : α → Except BufferError γ} {k' : β → Except BufferError δ}
    (h : ResultsAlike f R x y)
    (hk : ∀ a b, R a b → ResultsAlike f Q (k a) (k' b)) :
    ResultsAlike f Q (x >>= k) (y >>= k') := by
  cases h with
  | ok hab => exact hk _ _ hab
  | error e => exact .error e

theorem map {x : Except BufferError α} {y : Except BufferError β} {g : α → γ}
    {g' : β → δ} (h : ResultsAlike f R x y)
    (hg : ∀ a b, R a b → Q (g a) (g' b)) :
    ResultsAlike f Q (x.map g) (y.map g') := by
  cases h with
  | ok hab => exact .ok (hg _ _ hab)
  | error e => exact .error e

theorem mapM {R' : γ → δ → Prop} {k : α → Except BufferError γ}
    {k' : β → Except BufferError δ} {l : List α} {l' : List β}
    (hk : ∀ a b, R a b → ResultsAlike f R' (k a) (k' b))
    (h : List.Forall₂ R l l') :
    ResultsAlike f (List.Forall₂ R') (l.mapM k) (l'.mapM k') := by
  induction h with
  | nil => exact .ok .nil
  | cons hab _ ih =>
    rw [List.mapM_cons, List.mapM_cons]
    refine (hk _ _ hab).bind fun c d hcd => ?_
    exact ih.bind fun cs ds hcds => .ok (.cons hcd hcds)

theorem traverseEntries {k : String → α → Except BufferError γ}
    {k' : String → β → Except BufferError γ} {l : List (String × α)}
    {l' : List (String × β)}
    (h : List.Forall₂ (fun p q => p.1 = q.1 ∧
      ResultsAlike f Eq (k p.1 p.2) (k' q.1 q.2)) l l') :
    ResultsAlike f Eq (NameMap.traverseEntries k l)
      (NameMap.traverseEntries k' l') := by
  induction h with
  | nil => exact .ok rfl
  | @cons p q l l' hpq _ ih =>
    obtain ⟨name, a⟩ := p
    obtain ⟨name', b⟩ := q
    obtain ⟨rfl, hresult⟩ := hpq
    rw [NameMap.traverseEntries, NameMap.traverseEntries]
    dsimp only at hresult ⊢
    generalize k name a = x at hresult
    generalize k' name b = y at hresult
    cases hresult with
    | error e => exact .error e
    | ok hab =>
      subst hab
      dsimp only
      generalize NameMap.traverseEntries k l = xs at ih
      generalize NameMap.traverseEntries k' l' = ys at ih
      cases ih with
      | error e => exact .error e
      | ok hrest =>
        subst hrest
        exact .ok rfl

theorem traverse {k : String → α → Except BufferError γ}
    {k' : String → β → Except BufferError γ} {m : NameMap α} {n : NameMap β}
    (h : List.Forall₂ (fun p q => p.1 = q.1 ∧
      ResultsAlike f Eq (k p.1 p.2) (k' q.1 q.2)) m.entries n.entries) :
    ResultsAlike f Eq (m.traverse k) (n.traverse k') := by
  have hwalk := traverseEntries h
  unfold NameMap.traverse
  split
  · rename_i e he
    rw [he] at hwalk
    split
    · rename_i e' he'
      rw [he'] at hwalk
      cases hwalk
      exact .error e
    · rename_i r' hr'
      rw [hr'] at hwalk
      cases hwalk
  · rename_i r hr
    rw [hr] at hwalk
    split
    · rename_i e' he'
      rw [he'] at hwalk
      cases hwalk
    · rename_i r' hr'
      rw [hr'] at hwalk
      cases hwalk with
      | ok heq =>
        subst heq
        exact .ok rfl

end ResultsAlike

/-! ## Spans -/

section Spans

variable {f : String → String} {policies : Policies} {zone : String}

theorem SpansApart.rename {l : List Span} (h : SpansApart l) :
    SpansApart (l.map (Span.rename f)) where
  forward s hs := by
    obtain ⟨s, hmem, rfl⟩ := List.mem_map.1 hs
    exact h.forward s hmem
  disjoint := List.pairwise_map.2 h.disjoint

end Spans

/-! ## One year -/

structure Candidate.SameButPolicy (c c' : Candidate) : Prop where
  instant : c.instant = c'.instant
  origin : c.origin = c'.origin
  save : c.save = c'.save

structure ActiveSpan.Renames (f : String → String) (a a' : ActiveSpan) :
    Prop where
  index : a.index = a'.index
  span : a'.span = a.span.rename f
  start : Option.Rel Candidate.SameButPolicy a.start a'.start

structure Pending.Renames (f : String → String) (p p' : Pending) : Prop where
  active : p.active.Renames f p'.active
  index : p.index = p'.index
  rule : p.rule = p'.rule
  seconds : p.seconds = p'.seconds

namespace Pending

variable {f : String → String} {p p' : Pending} {ps ps' : List Pending}

theorem Renames.saveBefore_eq (h : p.Renames f p') (save : Int)
    (previous : Option Nat) :
    p.saveBefore save previous = p'.saveBefore save previous := by
  have hstart : p.active.start.map (·.save) = p'.active.start.map (·.save) := by
    have hrel := h.active.start
    generalize p.active.start = x at hrel
    generalize p'.active.start = x' at hrel
    cases hrel with
    | none => rfl
    | some hc => exact congrArg some hc.save
  unfold saveBefore
  rw [h.active.index, hstart]

theorem Renames.candidate (h : p.Renames f p') (save : Int) :
    (p.candidate save).SameButPolicy (p'.candidate save) := by
  unfold Pending.candidate
  rw [h.active.span, h.rule, h.seconds, h.index]
  exact ⟨rfl, rfl, rfl⟩

end Pending

section OneYear

variable {f : String → String} {z : ZoneReplay} {bounds : YearBounds}
  {year : Int}

end OneYear

/-! ## Whole replays -/

section Replays

variable {f : String → String} {z : ZoneReplay}

structure ReplayedZone.Renames (f : String → String) (r r' : ReplayedZone) :
    Prop where
  needs : r.years.map (fun y => (y.year, y.need)) =
    r'.years.map fun y => (y.year, y.need)
  fault : r'.fault = r.fault.map (BufferError.rename f)

end Replays

/-! ## Databases -/

namespace Database

/-- Whether no span of a zone is empty and no two spans of a zone overlap.  The one
does not follow from the other if an era before the last one is open. -/
def SpansApart (db : Database) : Prop :=
  ∀ zone eras l, db.zones.get? zone = some eras →
    spans zone db.policies eras = .ok l → ZoneTables.SpansApart l

end Database

end ZoneTables
