import ZoneTables.Proofs.Database.Removals

/-!
# Comments by name

The comments on a name are told by the findings about it.  Those of a zone that
are merged depend on its own, on the policies that it uses, and on the comments
on these.
-/

namespace ZoneTables

open Finding

namespace CommentMap

variable {subject : Subject} {found findings : List Finding}

theorem notes_append
    (h : ∀ finding ∈ found, ∃ kind name why, finding = removed kind name why) :
    notes subject (found ++ findings) = notes subject findings := by
  induction found with
  | nil => rfl
  | cons finding found ih =>
    rw [List.forall_mem_cons] at h
    obtain ⟨⟨kind, name, why, rfl⟩, hrest⟩ := h
    exact ih hrest

theorem removals_append (h : ∀ name, removalsOf subject name found = []) :
    removals subject (found ++ findings) = removals subject findings := by
  refine NameMap.eq_of_get?_eq fun name => ?_
  rw [get?_removals, get?_removals, removalsOf_append, h, List.nil_append]

end CommentMap

/-! ## Merged comments -/

def inheritComments (policies : CommentMap) (names : NameSet)
    (own : Option ZoneComments) : Option ZoneComments :=
  let inherited := policies.filter fun policy _ => names.contains policy
  if inherited.isEmpty then own
  else some ⟨(own.map (·.reasons)).getD .empty, inherited⟩

theorem get?_mergeComments (zones policies : CommentMap) (use : PolicyUse)
    (zone : String) :
    let own := (zones.get? zone).map fun reasons => ⟨reasons, .empty⟩
    (mergeComments zones policies use).get? zone =
      (use.get? zone).elim own fun names =>
        inheritComments policies names own := by
  unfold mergeComments
  dsimp only
  rw [← NameMap.get?_map fun _ reasons => (⟨reasons, .empty⟩ : ZoneComments)]
  refine @NameMap.get?_foldl_entries _ _ _ zone zone (inheritComments policies)
    (fun merged ⟨key, names⟩ => ?_) use _
  dsimp only [inheritComments]
  by_cases hkey : key = zone
  · subst hkey
    rw [if_pos rfl]
    split
    · rfl
    · rw [NameMap.get?_alter, if_pos rfl]
      cases merged.get? key <;> rfl
  · rw [if_neg hkey]
    split
    · rfl
    · rw [NameMap.get?_alter, if_neg (Ne.symm hkey)]

/-! ## Comments that are joined -/

/-- Whether a map has the entries of two maps that share no name. -/
structure NameMap.Joins {α : Type} (m n total : NameMap α) : Prop where
  apart : ∀ name, m.contains name → n.get? name = none
  value : ∀ name, total.get? name = (m.get? name).or (n.get? name)

section Joins

variable {left : NameMap Removal} {subject : Subject}
  {found findings : List Finding} {removed total : CommentMap}

theorem CommentMap.joins_removals
    (hfound : ∀ name, removalsOf subject name found = (left.get? name).toList)
    (hapart : ∀ name, left.contains name →
      removalsOf subject name findings = []) :
    (left.map fun _ why => NameSet.insert .empty why.message).Joins
      (removals subject findings) (removals subject (found ++ findings)) where
  apart name hname := by
    rw [NameMap.contains_map] at hname
    rw [get?_removals, hapart name hname]
    rfl
  value name := by
    rw [get?_removals, get?_removals, removalsOf_append, hfound,
      NameMap.get?_map]
    cases hleft : left.get? name with
    | none => rfl
    | some why =>
      rw [hapart name (by rw [NameMap.contains, hleft]; rfl)]
      rfl

theorem NameMap.Joins.mergeComments {left : CommentMap} {use : PolicyUse}
    (h : left.Joins removed total) (policies : CommentMap)
    (hleft : ∀ zone, left.contains zone → use.get? zone = none) :
    (left.map fun _ reasons => (⟨reasons, .empty⟩ : ZoneComments)).Joins
      (mergeComments removed policies
        (use.filter fun zone _ => removed.contains zone))
      (mergeComments total policies
        (use.filter fun zone _ => total.contains zone)) where
  apart zone hzone := by
    rw [contains_map] at hzone
    rw [get?_mergeComments, get?_filter, hleft zone hzone, h.apart zone hzone]
    rfl
  value zone := by
    rw [get?_mergeComments, get?_mergeComments, get?_filter, get?_filter,
      get?_map, contains, contains, h.value]
    cases hzone : left.get? zone with
    | none => rfl
    | some reasons =>
      rw [hleft zone (by rw [contains, hzone]; rfl)]
      rfl

end Joins

end ZoneTables
