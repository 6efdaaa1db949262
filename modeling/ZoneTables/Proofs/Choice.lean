import Mathlib.Data.List.Forall2
import ZoneTables.Choice

/-!
# What a choice settles on

The element that is chosen from a list is preferred to all before it, and none
behind it is preferred to it.  Of elements that rank alike a greatest element
is thus the first or the last one, as the name of the choice says.
-/

namespace ZoneTables

variable {α : Type}

/-- The laws that make the choice from a list depend on ranks only. -/
structure IsPreference (preferred : α → α → Bool) : Prop where
  trans : ∀ {a b c}, preferred a b → preferred b c → preferred a c
  of_not : ∀ {a b c}, preferred a b → ¬ preferred c b → preferred a c

/-- The laws of a strict order in which elements can rank alike. -/
structure IsRanking (lt : α → α → Bool) : Prop where
  asymm : ∀ {a b}, lt a b → ¬ lt b a
  split : ∀ {a b c}, lt a c → lt a b ∨ lt b c

namespace IsRanking

variable {lt : α → α → Bool}

theorem trans (h : IsRanking lt) {a b c : α} (hab : lt a b) (hbc : lt b c) :
    lt a c := by
  rcases h.split (b := c) hab with hac | hcb
  · exact hac
  · exact absurd hcb (h.asymm hbc)

theorem irrefl (h : IsRanking lt) (a : α) : ¬ lt a a :=
  fun haa => h.asymm haa haa

theorem flip (h : IsRanking lt) : IsRanking fun a b => lt b a where
  asymm hab := h.asymm hab
  split hac := (h.split hac).symm

theorem isPreference_not (h : IsRanking lt) :
    IsPreference fun a b => !lt a b where
  trans {a b c} hab hbc := by
    simp only [Bool.not_eq_true', Bool.eq_false_iff] at hab hbc ⊢
    intro hac
    exact (h.split hac).elim hab hbc
  of_not {a b c} hab hcb := by
    simp only [Bool.not_eq_true', Bool.eq_false_iff, ne_eq,
      Decidable.not_not] at hab hcb ⊢
    exact fun hac => hab (h.trans hac hcb)

theorem isPreference (h : IsRanking lt) : IsPreference lt where
  trans := h.trans
  of_not hab hcb := (h.split hab).resolve_right hcb

end IsRanking

private def chooseFrom (preferred : α → α → Bool) (b : α) (l : List α) : α :=
  l.foldl (fun b a => if preferred a b then a else b) b

private theorem foldl_choose (preferred : α → α → Bool) (b : α) (l : List α) :
    l.foldl
        (fun best a =>
          match best with
          | none => some a
          | some b => if preferred a b then some a else some b)
        (some b) =
      some (chooseFrom preferred b l) := by
  induction l generalizing b with
  | nil => rfl
  | cons a l ih =>
    rw [chooseFrom, List.foldl_cons, List.foldl_cons]
    by_cases h : preferred a b
    · simp only [h, if_true]
      exact ih a
    · simp only [h]
      exact ih b

theorem choose?_cons (preferred : α → α → Bool) (b : α) (l : List α) :
    choose? preferred (b :: l) = some (chooseFrom preferred b l) :=
  foldl_choose preferred b l

theorem choose?_concat (preferred : α → α → Bool) (l : List α) (a : α) :
    choose? preferred (l ++ [a]) =
      some ((choose? preferred l).elim a
        fun b => if preferred a b then a else b) := by
  unfold choose?
  rw [List.foldl_append, List.foldl_cons, List.foldl_nil]
  split
  · rename_i hnone
    rw [hnone]
    rfl
  · rename_i b hsome
    rw [hsome, Option.elim_some]
    split <;> rfl

theorem choose?_eq_none {preferred : α → α → Bool} {l : List α} :
    choose? preferred l = none ↔ l = [] := by
  cases l with
  | nil => exact ⟨fun _ => rfl, fun _ => rfl⟩
  | cons b l => rw [choose?_cons]; exact ⟨nofun, nofun⟩

/-- What was passed over before is passed over by the element that is left:
`seen` holds the elements before the rest `l`, with the choice `b` so far. -/
private theorem chooseFrom_spec {preferred : α → α → Bool}
    (hp : IsPreference preferred) (l pre post : List α) (b : α)
    (hpre : ∀ x ∈ pre, preferred b x) (hpost : ∀ x ∈ post, ¬ preferred x b) :
    ∃ front back, pre ++ b :: post ++ l =
        front ++ chooseFrom preferred b l :: back ∧
      (∀ x ∈ front, preferred (chooseFrom preferred b l) x) ∧
      ∀ x ∈ back, ¬ preferred x (chooseFrom preferred b l) := by
  induction l generalizing pre post b with
  | nil => exact ⟨pre, post, by rw [List.append_nil]; rfl, hpre, hpost⟩
  | cons a l ih =>
    by_cases h : preferred a b
    · -- `a` replaces the choice: all that was seen moves before it
      have hseen : ∀ x ∈ pre ++ b :: post, preferred a x := by
        intro x hx
        rcases List.mem_append.1 hx with hx | hx
        · exact hp.trans h (hpre x hx)
        · rcases List.mem_cons.1 hx with rfl | hx
          · exact h
          · exact hp.of_not h (hpost x hx)
      have hstep : chooseFrom preferred b (a :: l) =
          chooseFrom preferred a l := by
        simp only [chooseFrom, List.foldl_cons, h, if_true]
      obtain ⟨front, back, heq, hfront, hback⟩ :=
        ih (pre ++ b :: post) [] a hseen (fun x hx => nomatch hx)
      rw [hstep]
      exact ⟨front, back, by simpa using heq, hfront, hback⟩
    · have hstep : chooseFrom preferred b (a :: l) =
          chooseFrom preferred b l := by
        simp only [chooseFrom, List.foldl_cons, h]
        rfl
      have hpost' : ∀ x ∈ post ++ [a], ¬ preferred x b := by
        intro x hx
        rcases List.mem_append.1 hx with hx | hx
        · exact hpost x hx
        · rw [List.mem_singleton] at hx
          exact hx ▸ h
      obtain ⟨front, back, heq, hfront, hback⟩ :=
        ih pre (post ++ [a]) b hpre hpost'
      rw [hstep]
      exact ⟨front, back, by simpa using heq, hfront, hback⟩

theorem choose?_eq_some {preferred : α → α → Bool}
    (hp : IsPreference preferred) {l : List α} {a : α}
    (h : choose? preferred l = some a) :
    ∃ front back, l = front ++ a :: back ∧
      (∀ x ∈ front, preferred a x) ∧ ∀ x ∈ back, ¬ preferred x a := by
  cases l with
  | nil => cases h
  | cons b l =>
    rw [choose?_cons] at h
    cases h
    exact chooseFrom_spec hp l [] [] b (fun x hx => nomatch hx)
      (fun x hx => nomatch hx)

theorem choose?_mem {preferred : α → α → Bool} {l : List α} {a : α}
    (h : choose? preferred l = some a) : a ∈ l := by
  have hfrom : ∀ (l : List α) (b : α), chooseFrom preferred b l ∈ b :: l := by
    intro l
    induction l with
    | nil => exact fun b => List.mem_cons_self
    | cons a l ih =>
      intro b
      have hstep : chooseFrom preferred b (a :: l) =
          chooseFrom preferred (if preferred a b then a else b) l := rfl
      rw [hstep]
      split
      · exact List.mem_cons_of_mem _ (ih a)
      · rcases List.mem_cons.1 (ih b) with hb | hl
        · rw [hb]
          exact List.mem_cons_self
        · exact List.mem_cons_of_mem _ (List.mem_cons_of_mem _ hl)
  cases l with
  | nil => cases h
  | cons b l =>
    rw [choose?_cons] at h
    cases h
    exact hfrom l b

theorem choose?_of_split {preferred : α → α → Bool} {front back : List α} {a : α}
    (hfront : ∀ x ∈ front, preferred a x) (hback : ∀ x ∈ back, ¬ preferred x a) :
    choose? preferred (front ++ a :: back) = some a := by
  have hstay : chooseFrom preferred a back = a := by
    unfold chooseFrom
    induction back with
    | nil => rfl
    | cons x back ih =>
      rw [List.forall_mem_cons] at hback
      rw [List.foldl_cons, if_neg hback.1, ih hback.2]
  cases front with
  | nil => rw [List.nil_append, choose?_cons, hstay]
  | cons b front =>
    have hmem : chooseFrom preferred b front ∈ b :: front :=
      choose?_mem (choose?_cons preferred b front)
    have hsplit : chooseFrom preferred b (front ++ a :: back) =
        chooseFrom preferred a back := by
      unfold chooseFrom at hmem ⊢
      rw [List.foldl_append, List.foldl_cons, if_pos (hfront _ hmem)]
    rw [List.cons_append, choose?_cons, hsplit, hstay]

theorem rel_choose? {β : Type} {R : α → β → Prop} {preferred : α → α → Bool}
    {preferred' : β → β → Bool}
    (hpreferred : ∀ a a' b b', R a b → R a' b' →
      preferred a a' = preferred' b b') {l : List α} {l' : List β}
    (h : List.Forall₂ R l l') :
    Option.Rel R (choose? preferred l) (choose? preferred' l') := by
  have hfrom : ∀ {l : List α} {l' : List β}, List.Forall₂ R l l' →
      ∀ {a b}, R a b →
        R (chooseFrom preferred a l) (chooseFrom preferred' b l') := by
    intro l l' h
    induction h with
    | nil => exact id
    | @cons c d l l' hcd _ ih =>
      intro a b hab
      simp only [chooseFrom, List.foldl_cons] at ih ⊢
      rw [hpreferred c a d b hcd hab]
      split
      · exact ih hcd
      · exact ih hab
  cases h with
  | nil => exact .none
  | cons hab hl =>
    rw [choose?_cons, choose?_cons]
    exact .some (hfrom hl hab)

section Measured

variable {β : Type} {preferred : β → β → Bool} {f : α → Option β}

/-- Among the elements that have a measure the choice is by measures. -/
theorem choose?_measured_eq_some (hp : IsPreference preferred) {l : List α}
    {a : α}
    (h : (choose? (fun x y : β × α => preferred x.1 y.1)
      (l.filterMap fun a => (f a).map fun b => (b, a))).map Prod.snd = some a) :
    ∃ front back b, l = front ++ a :: back ∧ f a = some b ∧
      (∀ x ∈ front, ∀ c, f x = some c → preferred b c) ∧
      ∀ x ∈ back, ∀ c, f x = some c → ¬ preferred c b := by
  obtain ⟨⟨b, a'⟩, hchoice, heq⟩ := Option.map_eq_some_iff.1 h
  cases heq
  have hpairs : IsPreference fun x y : β × α => preferred x.1 y.1 :=
    ⟨hp.trans, hp.of_not⟩
  obtain ⟨front, back, hlist, hfront, hback⟩ := choose?_eq_some hpairs hchoice
  -- the list is split where its elements with a measure are
  obtain ⟨before, rest, rfl, hbefore, hrest⟩ :=
    List.filterMap_eq_append_iff.1 hlist
  obtain ⟨skipped, a', behind, rfl, hskipped, ha, hbehind⟩ :=
    List.filterMap_eq_cons_iff.1 hrest
  obtain ⟨b', hb, heq⟩ := Option.map_eq_some_iff.1 ha
  cases heq
  refine ⟨before ++ skipped, behind, b, (List.append_assoc ..).symm, hb, ?_, ?_⟩
  · intro x hx c hc
    rcases List.mem_append.1 hx with hx | hx
    · refine hfront (c, x) ?_
      rw [← hbefore]
      exact List.mem_filterMap.2 ⟨x, hx, by rw [hc]; rfl⟩
    · have hnone := hskipped x hx
      rw [hc] at hnone
      cases hnone
  · intro x hx c hc
    refine hback (c, x) ?_
    rw [← hbehind]
    exact List.mem_filterMap.2 ⟨x, hx, by rw [hc]; rfl⟩

theorem choose?_measured_of_split (preferred : β → β → Bool)
    (f : α → Option β) {front back : List α} {a : α} {b : β} (ha : f a = some b)
    (hfront : ∀ x ∈ front, ∀ c, f x = some c → preferred b c)
    (hback : ∀ x ∈ back, ∀ c, f x = some c → ¬ preferred c b) :
    (choose? (fun x y : β × α => preferred x.1 y.1)
      ((front ++ a :: back).filterMap fun a =>
        (f a).map fun b => (b, a))).map Prod.snd = some a := by
  have hmeasured : ∀ {l : List α} {p : β × α},
      p ∈ l.filterMap (fun a => (f a).map fun b => (b, a)) →
        p.2 ∈ l ∧ f p.2 = some p.1 := by
    intro l p hp
    obtain ⟨x, hx, hpair⟩ := List.mem_filterMap.1 hp
    obtain ⟨c, hc, rfl⟩ := Option.map_eq_some_iff.1 hpair
    exact ⟨hx, hc⟩
  rw [List.filterMap_append, List.filterMap_cons, ha]
  dsimp only [Option.map_some]
  rw [choose?_of_split, Option.map_some]
  · exact fun p hp => hfront p.2 (hmeasured hp).1 p.1 (hmeasured hp).2
  · exact fun p hp => hback p.2 (hmeasured hp).1 p.1 (hmeasured hp).2

end Measured

section Ranking

variable {lt : α → α → Bool} {l : List α} {a : α}

theorem lastGreatest?_eq_none : lastGreatest? lt l = none ↔ l = [] :=
  choose?_eq_none

theorem lastGreatest?_eq_some (hlt : IsRanking lt)
    (h : lastGreatest? lt l = some a) :
    ∃ front back, l = front ++ a :: back ∧
      (∀ x ∈ front, ¬ lt a x) ∧ ∀ x ∈ back, lt x a := by
  obtain ⟨front, back, rfl, hfront, hback⟩ :=
    choose?_eq_some hlt.isPreference_not h
  refine ⟨front, back, rfl, fun x hx => ?_, fun x hx => ?_⟩
  · simpa using hfront x hx
  · simpa using hback x hx

theorem lastGreatest?_greatest (hlt : IsRanking lt)
    (h : lastGreatest? lt l = some a) : a ∈ l ∧ ∀ x ∈ l, ¬ lt a x := by
  obtain ⟨front, back, rfl, hfront, hback⟩ := lastGreatest?_eq_some hlt h
  refine ⟨List.mem_append_right _ List.mem_cons_self, fun x hx => ?_⟩
  rcases List.mem_append.1 hx with hx | hx
  · exact hfront x hx
  · rcases List.mem_cons.1 hx with rfl | hx
    · exact hlt.irrefl x
    · exact hlt.asymm (hback x hx)

theorem firstLeast?_least (hlt : IsRanking lt) (h : firstLeast? lt l = some a) :
    a ∈ l ∧ ∀ x ∈ l, ¬ lt x a := by
  obtain ⟨front, back, rfl, hfront, hback⟩ :=
    choose?_eq_some hlt.isPreference h
  refine ⟨List.mem_append_right _ List.mem_cons_self, fun x hx => ?_⟩
  rcases List.mem_append.1 hx with hx | hx
  · exact hlt.asymm (hfront x hx)
  · rcases List.mem_cons.1 hx with rfl | hx
    · exact hlt.irrefl x
    · exact hback x hx

end Ranking

end ZoneTables
