import ZoneTables.Database.OfSource
import ZoneTables.Proofs.Success

/-!
# What becomes of an entry

A named entry goes through one review after another until one of them removes
it.  A map and the findings made so far tell its fate: the value that it has by
now, or the reason for which it was removed.  The reviews of other entries have
no part in it.
-/

namespace ZoneTables

variable {α β : Type}

/-! ## Findings about one entry -/

namespace Finding

def removalOf? (subject : Subject) (name : String) : Finding → Option Removal
  | removed kind other why =>
    if kind = subject ∧ other = name then some why else none
  | noted .. => none

def removalsOf (subject : Subject) (name : String)
    (findings : List Finding) : List Removal :=
  findings.filterMap (removalOf? subject name)

variable {subject : Subject} {name : String}

@[simp] theorem removalsOf_nil : removalsOf subject name [] = [] := rfl

@[simp] theorem removalsOf_append (l r : List Finding) :
    removalsOf subject name (l ++ r) =
      removalsOf subject name l ++ removalsOf subject name r :=
  List.filterMap_append

theorem removalsOf_flatMap (l : List β) (f : β → List Finding) :
    removalsOf subject name (l.flatMap f) =
      l.flatMap fun b => removalsOf subject name (f b) :=
  List.filterMap_flatMap

@[simp] theorem removalsOf_noted (kind : Subject) (other : String)
    (notes : List Note) :
    removalsOf subject name (notes.map (noted kind other)) = [] := by
  simp [removalsOf, removalOf?]

end Finding

open Finding

def removalReason? : Except Removal α → Option Removal
  | .error why => some why
  | .ok _ => none

section Findings

variable {subject : Subject} {name : String}

theorem Review.removalsOf_findings (kind : Subject) (other : String)
    (r : Review α) :
    removalsOf subject name (r.findings kind other) =
      if other = name then
        if kind = subject then (removalReason? r.result).toList else []
      else [] := by
  unfold Review.findings
  rw [removalsOf_append, removalsOf_noted, List.nil_append]
  cases r.result with
  | ok a => simp [removalReason?]
  | error why =>
    by_cases hname : other = name <;> by_cases hkind : kind = subject <;>
      simp [removalsOf, removalOf?, removalReason?, hname, hkind]

theorem NameMap.removalsOf_review (kind : Subject) (f : String → α → Review β)
    (m : NameMap α) :
    removalsOf subject name (m.review kind f).findings =
      if kind = subject then
        (m.get? name).elim [] fun a => (removalReason? (f name a).result).toList
      else [] := by
  unfold NameMap.review
  dsimp only
  rw [removalsOf_flatMap]
  simp only [Review.removalsOf_findings]
  rw [flatMap_entries _ name fun r : Review β =>
    if kind = subject then (removalReason? r.result).toList else [], get?_map]
  by_cases hkind : kind = subject
  · cases m.get? name <;> simp [hkind]
  · cases m.get? name <;> simp [hkind]

theorem NameMap.removalsOf_review_of_ne {kind : Subject} (hkind : kind ≠ subject)
    (f : String → α → Review β) (m : NameMap α) :
    removalsOf subject name (m.review kind f).findings = [] := by
  rw [removalsOf_review, if_neg hkind]

@[simp] theorem removalsOf_anomalyFindings (zones : Zones)
    (policies : Policies) :
    removalsOf subject name (anomalyFindings zones policies) = [] := by
  unfold anomalyFindings
  simp [removalsOf_flatMap]

theorem CommentMap.get?_removals (findings : List Finding) :
    (removals subject findings).get? name =
      (removalsOf subject name findings).foldl
        (fun texts why => some (NameSet.insert (texts.getD .empty) why.message))
        none := by
  have hfold : ∀ (m : CommentMap), (findings.foldl
      (fun m finding =>
        match finding with
        | .removed kind name why =>
          if kind = subject then m.add name why.message else m
        | .noted .. => m) m).get? name =
      (removalsOf subject name findings).foldl
        (fun texts why => some (NameSet.insert (texts.getD .empty) why.message))
        (m.get? name) := by
    induction findings with
    | nil => exact fun m => rfl
    | cons finding findings ih =>
      intro m
      rw [List.foldl_cons, ih]
      unfold removalsOf
      cases finding with
      | noted kind other note => rfl
      | removed kind other why =>
        by_cases hkind : kind = subject <;> by_cases hname : other = name
        · subst hname
          simp [removalOf?, hkind, CommentMap.add]
        · simp [removalOf?, hkind, hname, CommentMap.add, Ne.symm hname]
        · simp [removalOf?, hkind]
        · simp [removalOf?, hkind]
  exact hfold .empty

end Findings

/-! ## Fates -/

/-- Whether a map and the findings so far tell the fate of an entry: the value
that it has by now or the reason for which it was removed, if it ever was. -/
structure TellsFate (subject : Subject) (name : String)
    (fate : Option (Except Removal α)) (m : NameMap α)
    (findings : List Finding) : Prop where
  value : m.get? name = fate.bind Except.toOption
  reasons : removalsOf subject name findings =
    (fate.bind removalReason?).toList

namespace TellsFate

variable {subject : Subject} {name : String}
  {fate : Option (Except Removal α)} {m : NameMap α} {findings : List Finding}

theorem start (subject : Subject) (name : String) (m : NameMap α) :
    TellsFate subject name ((m.get? name).map .ok) m [] := by
  constructor
  · cases m.get? name <;> rfl
  · cases m.get? name <;> rfl

theorem review (h : TellsFate subject name fate m findings)
    {f : String → α → Review β} {g : α → Except Removal β}
    (hg : ∀ a, m.get? name = some a → (f name a).result = g a) :
    TellsFate subject name (fate.map (· >>= g)) (m.review subject f).kept
      (findings ++ (m.review subject f).findings) := by
  obtain ⟨hvalue, hreasons⟩ := h
  have hkept : (m.review subject f).kept.get? name =
      (m.get? name).bind fun a => (f name a).kept? :=
    NameMap.get?_review
  have hfound : removalsOf subject name (m.review subject f).findings =
      (m.get? name).elim [] fun a =>
        (removalReason? (f name a).result).toList := by
    rw [NameMap.removalsOf_review, if_pos rfl]
  rcases fate with _ | why | a
  · have hnone : m.get? name = none := hvalue
    exact ⟨by rw [hkept, hnone]; rfl,
      by rw [removalsOf_append, hfound, hnone, hreasons]; rfl⟩
  · have hnone : m.get? name = none := hvalue
    exact ⟨by rw [hkept, hnone]; rfl,
      by rw [removalsOf_append, hfound, hnone, hreasons]; rfl⟩
  · have hsome : m.get? name = some a := hvalue
    have hresult := hg a hsome
    constructor
    · rw [hkept, hsome, Option.bind_some, Review.kept?, hresult]
      rfl
    · rw [removalsOf_append, hfound, hsome, hreasons, Option.elim_some, hresult]
      rfl

theorem keep (h : TellsFate subject name fate m findings)
    {f : String → α → Review α}
    (hf : ∀ a, m.get? name = some a → (f name a).result = .ok a) :
    TellsFate subject name fate (m.review subject f).kept
      (findings ++ (m.review subject f).findings) := by
  have hreview := h.review hf
  have hsame : fate.map (· >>= Except.ok) = fate := by
    rcases fate with _ | _ | _ <;> rfl
  rwa [hsame] at hreview

theorem map (h : TellsFate subject name fate m findings)
    (g : String → α → β) :
    TellsFate subject name (fate.map (·.map (g name))) (m.map g) findings := by
  constructor
  · rw [NameMap.get?_map, h.value]
    cases fate with
    | none => rfl
    | some x => cases x <;> rfl
  · rw [h.reasons]
    cases fate with
    | none => rfl
    | some x => cases x <;> rfl

theorem of_removalsOf_eq (h : TellsFate subject name fate m findings)
    {findings' : List Finding}
    (heq : removalsOf subject name findings' =
      removalsOf subject name findings) :
    TellsFate subject name fate m findings' :=
  ⟨h.value, heq.trans h.reasons⟩

theorem get?_removals (h : TellsFate subject name fate m findings) :
    (CommentMap.removals subject findings).get? name =
      (fate.bind removalReason?).map fun why =>
        NameSet.insert .empty why.message := by
  rw [CommentMap.get?_removals, h.reasons]
  cases fate.bind removalReason? <;> rfl

end TellsFate

end ZoneTables
