import Mathlib.Data.List.Forall2
import ZoneTables.Sort

/-!
# What sorting does to a list

Sorting by a key rearranges a list so that the keys do not decrease, and does
not change the order of elements that have the same key.
-/

namespace ZoneTables

variable {α : Type} {key : α → Int}

theorem insertByKey_perm (a : α) (l : List α) :
    (insertByKey key a l).Perm (a :: l) := by
  induction l with
  | nil => exact .refl _
  | cons b l ih =>
    rw [insertByKey]
    split
    · exact .refl _
    · exact (ih.cons b).trans (.swap a b l)

theorem sortByKey_perm (l : List α) : (sortByKey key l).Perm l := by
  induction l with
  | nil => exact .refl _
  | cons a l ih => exact (insertByKey_perm a _).trans (ih.cons a)

theorem mem_sortByKey {a : α} {l : List α} : a ∈ sortByKey key l ↔ a ∈ l :=
  (sortByKey_perm l).mem_iff

private theorem pairwise_insertByKey (a : α) {l : List α}
    (h : l.Pairwise fun b c => key b ≤ key c) :
    (insertByKey key a l).Pairwise fun b c => key b ≤ key c := by
  induction h with
  | nil => exact List.pairwise_singleton _ a
  | @cons b l hb hl ih =>
    rw [insertByKey]
    split
    · rename_i hab
      refine List.pairwise_cons.2 ⟨fun c hc => ?_, List.pairwise_cons.2 ⟨hb, hl⟩⟩
      rcases List.mem_cons.1 hc with rfl | hc
      · exact hab
      · exact Int.le_trans hab (hb c hc)
    · rename_i hab
      refine List.pairwise_cons.2 ⟨fun c hc => ?_, ih⟩
      rcases List.mem_cons.1 ((insertByKey_perm a l).mem_iff.1 hc) with rfl | hc
      · omega
      · exact hb c hc

theorem pairwise_sortByKey (l : List α) :
    (sortByKey key l).Pairwise fun a b => key a ≤ key b := by
  induction l with
  | nil => exact .nil
  | cons a l ih => exact pairwise_insertByKey a ih

private theorem filter_insertByKey {p : α → Bool}
    (h : ∀ a b, p a → p b → key a = key b) (a : α) (l : List α) :
    (insertByKey key a l).filter p = (a :: l).filter p := by
  induction l with
  | nil => rfl
  | cons b l ih =>
    rw [insertByKey]
    split
    · rfl
    · rename_i hab
      rw [List.filter_cons, ih]
      by_cases hb : p b
      · -- the elements of interest have one key, so `a` is not of them
        have ha : ¬ p a := fun ha => hab (Int.le_of_eq (h a b ha hb))
        simp only [List.filter_cons, hb, ha, if_true]
        rfl
      · simp only [List.filter_cons, hb]
        rfl

theorem filter_sortByKey {p : α → Bool}
    (h : ∀ a b, p a → p b → key a = key b) (l : List α) :
    (sortByKey key l).filter p = l.filter p := by
  induction l with
  | nil => rfl
  | cons a l ih =>
    have hstep : sortByKey key (a :: l) = insertByKey key a (sortByKey key l) :=
      rfl
    rw [hstep, filter_insertByKey h, List.filter_cons, List.filter_cons, ih]

/-- Whether a list has the elements of another one, by their keys, and those of
one key in the order that they have there. -/
structure StablySorted (key : α → Int) (l sorted : List α) : Prop where
  perm : sorted.Perm l
  ordered : sorted.Pairwise fun a b => key a ≤ key b
  stable : ∀ k, (sorted.filter fun a => decide (key a = k)) =
    l.filter fun a => decide (key a = k)

theorem stablySorted_sortByKey (l : List α) :
    StablySorted key l (sortByKey key l) where
  perm := sortByKey_perm l
  ordered := pairwise_sortByKey l
  stable k := by
    apply filter_sortByKey
    intro a b ha hb
    rw [decide_eq_true_eq] at ha hb
    exact ha.trans hb.symm

theorem insertByKey_eq (a : α) (l : List α) :
    insertByKey key a l = (l.takeWhile fun b => decide (key b < key a)) ++
      a :: l.dropWhile fun b => decide (key b < key a) := by
  induction l with
  | nil => rfl
  | cons b l ih =>
    rw [insertByKey]
    by_cases hab : key a ≤ key b
    · rw [if_pos hab, List.takeWhile_cons_of_neg (by simpa using hab),
        List.dropWhile_cons_of_neg (by simpa using hab), List.nil_append]
    · rw [if_neg hab, List.takeWhile_cons_of_pos (by simpa using hab),
        List.dropWhile_cons_of_pos (by simpa using hab), ih, List.cons_append]

private theorem filter_insertByKey_sorted {p : α → Bool} {a : α} {l : List α}
    (h : l.Pairwise fun b c => key b ≤ key c) :
    (insertByKey key a l).filter p =
      if p a then insertByKey key a (l.filter p) else l.filter p := by
  induction h with
  | nil => by_cases ha : p a <;> simp [insertByKey, ha]
  | @cons b l hb hl ih =>
    rw [insertByKey]
    by_cases hab : key a ≤ key b
    · -- the element stays in front of all that are left
      have hfront : insertByKey key a (l.filter p) = a :: l.filter p := by
        cases hfilter : l.filter p with
        | nil => rfl
        | cons c rest =>
          have hc : c ∈ l.filter p := by simp [hfilter]
          rw [insertByKey, if_pos]
          exact Int.le_trans hab (hb c (List.mem_filter.1 hc).1)
      rw [if_pos hab]
      by_cases hpb : p b <;> by_cases hpa : p a <;>
        simp [hpa, hpb, insertByKey, hab, hfront]
    · rw [if_neg hab]
      by_cases hpb : p b <;> by_cases hpa : p a <;>
        simp [hpa, hpb, insertByKey, hab, ih]

theorem filter_sortByKey_eq (p : α → Bool) (l : List α) :
    (sortByKey key l).filter p = sortByKey key (l.filter p) := by
  induction l with
  | nil => rfl
  | cons a l ih =>
    have hstep : sortByKey key (a :: l) = insertByKey key a (sortByKey key l) :=
      rfl
    rw [hstep, filter_insertByKey_sorted (pairwise_sortByKey l), ih]
    by_cases ha : p a
    · rw [if_pos ha, List.filter_cons_of_pos ha]
      rfl
    · rw [if_neg ha, List.filter_cons_of_neg ha]

theorem filter_lt_append_filter_eq {k : Int} {l : List α}
    (h : l.Pairwise fun a b => key a ≤ key b) (hle : ∀ a ∈ l, key a ≤ k) :
    (l.filter fun a => decide (key a < k)) ++
      (l.filter fun a => decide (key a = k)) = l := by
  induction h with
  | nil => rfl
  | @cons a l ha _ ih =>
    rw [List.forall_mem_cons] at hle
    rcases Int.lt_or_eq_of_le hle.1 with hlt | heq
    · rw [List.filter_cons_of_pos (by simpa using hlt),
        List.filter_cons_of_neg (by simpa using Int.ne_of_lt hlt),
        List.cons_append, ih hle.2]
    · -- the element has the greatest key, and so have those behind it
      have hnone : ((a :: l).filter fun b => decide (key b < k)) = [] := by
        rw [List.filter_eq_nil_iff, List.forall_mem_cons]
        refine ⟨by rw [decide_eq_true_eq]; omega, fun b hb => ?_⟩
        have := ha b hb
        rw [decide_eq_true_eq]
        omega
      rw [hnone, List.nil_append, List.filter_eq_self]
      intro b hb
      rw [decide_eq_true_eq]
      rcases List.mem_cons.1 hb with rfl | hb
      · exact heq
      · have := ha b hb
        have := hle.2 b hb
        omega

theorem forall₂_sortByKey {β : Type} {key' : β → Int} {R : α → β → Prop}
    (hkey : ∀ a b, R a b → key a = key' b) {l : List α} {l' : List β}
    (h : List.Forall₂ R l l') :
    List.Forall₂ R (sortByKey key l) (sortByKey key' l') := by
  have hinsert : ∀ {a b} {l : List α} {l' : List β}, R a b →
      List.Forall₂ R l l' →
      List.Forall₂ R (insertByKey key a l) (insertByKey key' b l') := by
    intro a b l l' hab h
    induction h with
    | nil => exact .cons hab .nil
    | @cons c d l l' hcd hl ih =>
      rw [insertByKey, insertByKey, hkey a b hab, hkey c d hcd]
      split
      · exact .cons hab (.cons hcd hl)
      · exact .cons hcd ih
  induction h with
  | nil => exact .nil
  | cons hab _ ih => exact hinsert hab ih

end ZoneTables
