import ZoneTables.Name.StringTable
import ZoneTables.NameMap.Lookup

/-!
# Positions of names

The position of a name leads back to the name, and every name of a map or of a
string table has a position.
-/

namespace ZoneTables

namespace NameMap

variable {α : Type} {m : NameMap α} {name : String}

theorem getElem?_keys_of_indexOf? {i : Nat} (h : m.indexOf? name = some i) :
    m.keys[i]? = some name := by
  unfold indexOf? at h
  obtain ⟨hi, heq, _⟩ := List.findIdx?_eq_some_iff_getElem.1 h
  rw [List.getElem?_eq_getElem hi, beq_iff_eq.1 heq]

theorem exists_indexOf?_of_contains (h : m.contains name) :
    ∃ i, m.indexOf? name = some i := by
  rw [contains_iff_mem_keys] at h
  have hsome : (m.keys.findIdx? (· == name)).isSome := by
    rw [List.findIdx?_isSome, List.any_eq_true]
    exact ⟨name, h, beq_self_eq_true name⟩
  exact Option.isSome_iff_exists.1 hsome

theorem contains_of_get? {a : α} (h : m.get? name = some a) :
    m.contains name := by
  rw [contains, h]
  rfl

theorem indexOf?_eq_some_iff {i : Nat} :
    m.indexOf? name = some i ↔ m.keys[i]? = some name := by
  refine ⟨getElem?_keys_of_indexOf?, fun h => ?_⟩
  obtain ⟨hi, rfl⟩ := List.getElem?_eq_some_iff.1 h
  refine List.findIdx?_eq_some_iff_getElem.2
    ⟨hi, beq_self_eq_true _, fun j hj heq => ?_⟩
  have hlt := List.pairwise_iff_getElem.1 m.keys_sorted j i (by omega) hi hj
  rw [beq_iff_eq.1 heq] at hlt
  exact String.lt_irrefl _ hlt

end NameMap

namespace NameSet

private theorem contains_foldl_insert (names : List String) (name : String) :
    ∀ s : NameSet, (names.foldl insert s).contains name ↔
      name ∈ names ∨ s.contains name := by
  induction names with
  | nil => simp
  | cons other names ih =>
    intro s
    rw [List.foldl_cons, ih, insert, NameMap.contains_insert, List.mem_cons]
    constructor
    · rintro (h | h | h)
      · exact .inl (.inr h)
      · exact .inl (.inl h)
      · exact .inr h
    · rintro ((h | h) | h)
      · exact .inr (.inl h)
      · exact .inl h
      · exact .inr (.inr h)

theorem contains_ofList {names : List String} {name : String} :
    (ofList names).contains name ↔ name ∈ names := by
  unfold ofList
  rw [contains_foldl_insert]
  exact ⟨fun h => h.resolve_right nofun, .inl⟩

end NameSet

namespace StringTable

variable {t : StringTable} {s : String}

theorem get?_of_index? {i : Nat} (h : t.index? s = some i) :
    t.get? i = some s := by
  obtain ⟨j, hj, rfl⟩ := Option.map_eq_some_iff.1 h
  unfold get? entries
  rw [if_neg (by omega), Nat.add_sub_cancel_left]
  exact NameMap.getElem?_keys_of_indexOf? hj

theorem index?_eq_some_iff {i : Nat} :
    t.index? s = some i ↔ t.base ≤ i ∧ t.entries[i - t.base]? = some s := by
  unfold index? entries
  rw [Option.map_eq_some_iff]
  constructor
  · rintro ⟨j, hj, rfl⟩
    rw [Nat.add_sub_cancel_left]
    exact ⟨Nat.le_add_right _ _, NameMap.indexOf?_eq_some_iff.1 hj⟩
  · rintro ⟨hle, h⟩
    exact ⟨i - t.base, NameMap.indexOf?_eq_some_iff.2 h, by omega⟩

theorem exists_index?_ofList {base : Nat} {items : List String} (h : s ∈ items) :
    ∃ i, (ofList base items).index? s = some i := by
  obtain ⟨j, hj⟩ :=
    NameMap.exists_indexOf?_of_contains (NameSet.contains_ofList.2 h)
  exact ⟨base + j, by
    unfold index? ofList
    rw [hj, Option.map_some]⟩

end StringTable

end ZoneTables
