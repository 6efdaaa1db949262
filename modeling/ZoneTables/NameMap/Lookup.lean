import ZoneTables.NameMap

/-!
# Looking names up

A map is known by the values of its names.  The statements say what each
operation does to these values, and that two maps with the same values are the
same map, because their entries are in the same order.
-/

namespace ZoneTables.NameMap

variable {α β γ : Type}

/-! ## Entries -/

private theorem lookup_eq_none_of_forall_lt {name : String} :
    ∀ {l : List (String × α)}, (∀ p ∈ l, name < p.1) → lookup name l = none
  | [], _ => rfl
  | (key, a) :: rest, h => by
    have hkey : name ≠ key :=
      fun e => String.lt_irrefl name (e ▸ h _ List.mem_cons_self)
    rw [lookup, if_neg hkey]
    exact lookup_eq_none_of_forall_lt
      fun p hp => h p (List.mem_cons_of_mem _ hp)

private theorem lookup_eq_some_iff {name : String} {a : α} :
    ∀ {l : List (String × α)}, l.Pairwise (fun p q => p.1 < q.1) →
      (lookup name l = some a ↔ (name, a) ∈ l)
  | [], _ => by simp [lookup]
  | (key, b) :: rest, h => by
    obtain ⟨hhead, hrest⟩ := List.pairwise_cons.1 h
    rw [lookup]
    by_cases hkey : name = key
    · subst hkey
      have hmem : (name, a) ∉ rest :=
        fun hm => String.lt_irrefl name (hhead _ hm)
      simp [hmem, eq_comm]
    · rw [if_neg hkey, lookup_eq_some_iff hrest]
      simp [hkey]

theorem get?_eq_some_iff {m : NameMap α} {name : String} {a : α} :
    m.get? name = some a ↔ (name, a) ∈ m.entries :=
  lookup_eq_some_iff m.sorted

theorem contains_iff_mem_keys {m : NameMap α} {name : String} :
    m.contains name ↔ name ∈ m.keys := by
  rw [contains, Option.isSome_iff_exists, keys, List.mem_map]
  constructor
  · rintro ⟨a, ha⟩
    exact ⟨(name, a), get?_eq_some_iff.1 ha, rfl⟩
  · rintro ⟨⟨key, a⟩, hp, rfl⟩
    exact ⟨a, get?_eq_some_iff.2 hp⟩

theorem keys_sorted (m : NameMap α) : m.keys.Pairwise (· < ·) :=
  List.pairwise_map.2 m.sorted

private theorem flatMap_eq_nil_of_forall_lt {name : String} {g : α → List β}
    {l : List (String × α)} (h : ∀ p ∈ l, name < p.1) :
    (l.flatMap fun p => if p.1 = name then g p.2 else []) = [] := by
  rw [List.flatMap_eq_nil_iff]
  intro p hp
  rw [if_neg]
  exact fun heq => String.lt_irrefl name (heq ▸ h p hp)

private theorem flatMap_eq_lookup {name : String} {g : α → List β} :
    ∀ {l : List (String × α)}, l.Pairwise (fun p q => p.1 < q.1) →
      (l.flatMap fun p => if p.1 = name then g p.2 else []) =
        (lookup name l).elim [] g
  | [], _ => rfl
  | (key, a) :: rest, h => by
    obtain ⟨hhead, hrest⟩ := List.pairwise_cons.1 h
    rw [List.flatMap_cons, lookup]
    by_cases hkey : key = name
    · subst hkey
      rw [if_pos rfl, if_pos rfl, flatMap_eq_nil_of_forall_lt hhead,
        List.append_nil, Option.elim_some]
    · rw [if_neg hkey, if_neg (Ne.symm hkey), List.nil_append,
        flatMap_eq_lookup hrest]

theorem flatMap_entries (m : NameMap α) (name : String) (g : α → List β) :
    (m.entries.flatMap fun p => if p.1 = name then g p.2 else []) =
      (m.get? name).elim [] g :=
  flatMap_eq_lookup m.sorted

private theorem entries_eq_of_mem_iff :
    ∀ {l r : List (String × α)}, l.Pairwise (fun p q => p.1 < q.1) →
      r.Pairwise (fun p q => p.1 < q.1) →
      (∀ p, p ∈ l ↔ p ∈ r) → l = r
  | [], [], _, _, _ => rfl
  | [], q :: _, _, _, h => absurd ((h q).2 List.mem_cons_self) List.not_mem_nil
  | p :: _, [], _, _, h => absurd ((h p).1 List.mem_cons_self) List.not_mem_nil
  | p :: l, q :: r, hl, hr, h => by
    obtain ⟨hp, hl'⟩ := List.pairwise_cons.1 hl
    obtain ⟨hq, hr'⟩ := List.pairwise_cons.1 hr
    have hpq : p = q := by
      rcases List.mem_cons.1 ((h p).1 List.mem_cons_self) with e | hpr
      · exact e
      · rcases List.mem_cons.1 ((h q).2 List.mem_cons_self) with e | hql
        · exact e.symm
        · exact absurd (String.lt_trans (hp q hql) (hq p hpr))
            (String.lt_irrefl p.1)
    subst hpq
    congr 1
    refine entries_eq_of_mem_iff hl' hr' fun s => ⟨fun hs => ?_, fun hs => ?_⟩
    · rcases List.mem_cons.1 ((h s).1 (List.mem_cons_of_mem _ hs)) with e | hs'
      · exact absurd (e ▸ hp s hs) (String.lt_irrefl _)
      · exact hs'
    · rcases List.mem_cons.1 ((h s).2 (List.mem_cons_of_mem _ hs)) with e | hs'
      · exact absurd (e ▸ hq s hs) (String.lt_irrefl _)
      · exact hs'

theorem eq_of_get?_eq {m n : NameMap α}
    (h : ∀ name, m.get? name = n.get? name) : m = n := by
  have he : m.entries = n.entries :=
    entries_eq_of_mem_iff m.sorted n.sorted fun p => by
      rw [← get?_eq_some_iff, ← get?_eq_some_iff, h]
  cases m
  cases n
  cases he
  rfl

/-! ## Operations -/

@[simp] theorem get?_empty (name : String) : (empty : NameMap α).get? name = none :=
  rfl

private theorem lookup_insertEntry (name key : String) (value : α) :
    ∀ {l : List (String × α)}, l.Pairwise (fun p q => p.1 < q.1) →
      lookup key (insertEntry name value l) =
        if key = name then some value else lookup key l
  | [], _ => by simp [insertEntry, lookup]
  | (other, old) :: rest, h => by
    obtain ⟨hhead, hrest⟩ := List.pairwise_cons.1 h
    rw [insertEntry]
    split
    · simp [lookup]
    · split
      · rename_i heq
        subst heq
        simp only [lookup]
        split <;> rfl
      · rename_i hne
        simp only [lookup, lookup_insertEntry name key value hrest]
        by_cases hkey : key = other
        · subst hkey
          simp [Ne.symm hne]
        · simp [hkey]

@[simp] theorem get?_insert (m : NameMap α) (name key : String) (value : α) :
    (m.insert name value).get? key =
      if key = name then some value else m.get? key :=
  lookup_insertEntry name key value m.sorted

@[simp] theorem get?_alter (m : NameMap α) (name key : String)
    (f : Option α → α) :
    (m.alter name f).get? key =
      if key = name then some (f (m.get? name)) else m.get? key :=
  get?_insert m name key _

@[simp] theorem get?_filterMap (f : String → α → Option β) (m : NameMap α)
    (name : String) :
    (m.filterMap f).get? name = (m.get? name).bind (f name) := by
  refine Option.ext fun b => ?_
  rw [get?_eq_some_iff, filterMap, List.mem_filterMap]
  constructor
  · rintro ⟨⟨key, a⟩, hp, hb⟩
    obtain ⟨c, hc, he⟩ := Option.map_eq_some_iff.1 hb
    cases he
    rw [get?_eq_some_iff.2 hp]
    exact hc
  · intro hb
    obtain ⟨a, ha, hf⟩ := Option.bind_eq_some_iff.1 hb
    exact ⟨(name, a), get?_eq_some_iff.1 ha, by simp [hf]⟩

@[simp] theorem get?_map (f : String → α → β) (m : NameMap α)
    (name : String) : (m.map f).get? name = (m.get? name).map (f name) := by
  rw [map, get?_filterMap]
  cases m.get? name <;> rfl

@[simp] theorem get?_filter (p : String → α → Bool) (m : NameMap α)
    (name : String) :
    (m.filter p).get? name = (m.get? name).filter (p name) := by
  rw [filter, get?_filterMap]
  cases m.get? name <;> simp [Option.filter]

@[simp] theorem get?_erase (m : NameMap α) (name key : String) :
    (m.erase name).get? key = if key = name then none else m.get? key := by
  rw [erase, get?_filter]
  by_cases h : key = name
  · cases m.get? key <;> simp [h]
  · cases m.get? key <;> simp [h]

/-! ## Operations one after the other -/

theorem contains_insert {m : NameMap α} {name : String} (key : String)
    (a : α) :
    (m.insert key a).contains name ↔ name = key ∨ m.contains name := by
  unfold contains
  rw [get?_insert]
  by_cases h : name = key
  · simp [h]
  · simp [h]

theorem insert_insert (m : NameMap α) (name : String)
    (a b : α) : (m.insert name a).insert name b = m.insert name b := by
  refine eq_of_get?_eq fun key => ?_
  rw [get?_insert, get?_insert, get?_insert]
  by_cases h : key = name
  · rw [if_pos h, if_pos h]
  · rw [if_neg h, if_neg h, if_neg h]

theorem insert_comm {name other : String} (h : name ≠ other) (m : NameMap α)
    (a b : α) :
    (m.insert name a).insert other b = (m.insert other b).insert name a := by
  refine eq_of_get?_eq fun key => ?_
  rw [get?_insert, get?_insert, get?_insert, get?_insert]
  by_cases hkey : key = other
  · rw [if_pos hkey, if_neg (hkey ▸ h.symm), if_pos hkey]
  · rw [if_neg hkey, if_neg hkey]

@[simp] theorem contains_map (f : String → α → β) (m : NameMap α)
    (name : String) : (m.map f).contains name = m.contains name := by
  rw [contains, get?_map, Option.isSome_map, contains]

theorem map_alter {f : String → α → β} {g : Option α → α} {h : Option β → β}
    (m : NameMap α) (name : String)
    (hcomm : ∀ o : Option α, f name (g o) = h (o.map (f name))) :
    (m.alter name g).map f = (m.map f).alter name h := by
  refine eq_of_get?_eq fun key => ?_
  rw [get?_map, get?_alter, get?_alter, get?_map, get?_map]
  by_cases hkey : key = name
  · rw [if_pos hkey, if_pos hkey, Option.map_some, hkey, hcomm]
  · rw [if_neg hkey, if_neg hkey]

theorem filterMap_map (f : String → α → β) (g : String → β → Option γ)
    (m : NameMap α) :
    (m.map f).filterMap g = m.filterMap fun name a => g name (f name a) := by
  refine eq_of_get?_eq fun name => ?_
  rw [get?_filterMap, get?_map, get?_filterMap]
  cases m.get? name <;> rfl

theorem map_map (f : String → α → β) (g : String → β → γ) (m : NameMap α) :
    (m.map f).map g = m.map fun name a => g name (f name a) :=
  filterMap_map f _ m

theorem entries_map (f : String → α → β) (m : NameMap α) :
    (m.map f).entries = m.entries.map fun p => (p.1, f p.1 p.2) :=
  List.filterMap_eq_map (f := fun p : String × α => (p.1, f p.1 p.2)) ▸ rfl

theorem keys_map (f : String → α → β) (m : NameMap α) :
    (m.map f).keys = m.keys := by
  rw [keys, entries_map, List.map_map, keys]
  rfl

/-- A walk in which each entry changes the value that is kept of its name, and
no other, changes the value that is kept of a name once, by the entry of the
name. -/
theorem get?_foldl_entries {step : NameMap β → String × α → NameMap β}
    {name key : String} {change : α → Option β → Option β}
    (hstep : ∀ n p, (step n p).get? key =
      if p.1 = name then change p.2 (n.get? key) else n.get? key)
    (m : NameMap α) (n : NameMap β) :
    (m.entries.foldl step n).get? key =
      (m.get? name).elim (n.get? key) fun a => change a (n.get? key) := by
  have hwalk : ∀ (l : List (String × α)) (n : NameMap β),
      (l.foldl step n).get? key =
        (l.flatMap fun p => if p.1 = name then [p.2] else []).foldl
          (fun value a => change a value) (n.get? key) := by
    intro l
    induction l with
    | nil => exact fun n => rfl
    | cons p l ih =>
      intro n
      rw [List.foldl_cons, ih, hstep, List.flatMap_cons, List.foldl_append]
      split <;> rfl
  rw [hwalk, flatMap_entries m name fun a => [a]]
  cases m.get? name <;> rfl

theorem mem_flatten_values {m : NameMap (List α)} {a : α} :
    a ∈ m.values.flatten ↔ ∃ name l, m.get? name = some l ∧ a ∈ l := by
  simp only [values, List.mem_flatten, List.mem_map, get?_eq_some_iff]
  constructor
  · rintro ⟨_, ⟨⟨name, l⟩, hp, rfl⟩, ha⟩
    exact ⟨name, l, hp, ha⟩
  · rintro ⟨name, l, hp, ha⟩
    exact ⟨l, ⟨(name, l), hp, rfl⟩, ha⟩

theorem values_map (f : α → β) (m : NameMap α) :
    (m.map fun _ a => f a).values = m.values.map f := by
  rw [values, entries_map, List.map_map, values, List.map_map]
  rfl

/-! ## Sizes -/

private theorem nodup_entries (m : NameMap α) : m.entries.Nodup := by
  refine List.Pairwise.imp (fun {p q} (hlt : p.1 < q.1) => ?_) m.sorted
  rintro rfl
  exact String.lt_irrefl p.1 hlt

theorem entries_insert_perm (m : NameMap α) (name : String) (a : α) :
    (m.insert name a).entries.Perm ((name, a) :: (m.erase name).entries) := by
  have hnew : (name, a) ∉ (m.erase name).entries := by
    rw [← get?_eq_some_iff, get?_erase, if_pos rfl]
    exact nofun
  rw [List.perm_ext_iff_of_nodup (nodup_entries _)
    (List.nodup_cons.2 ⟨hnew, nodup_entries _⟩)]
  rintro ⟨key, b⟩
  rw [List.mem_cons, ← get?_eq_some_iff, ← get?_eq_some_iff, get?_insert,
    get?_erase, Prod.mk.injEq]
  by_cases hkey : key = name
  · simp [hkey, eq_comm]
  · simp [hkey]

theorem values_insert_perm (m : NameMap α) (name : String) (a : α) :
    (m.insert name a).values.Perm (a :: (m.erase name).values) :=
  (m.entries_insert_perm name a).map Prod.snd

theorem size_insert (m : NameMap α) (name : String) (a : α) :
    (m.insert name a).size = (m.erase name).size + 1 :=
  (m.entries_insert_perm name a).length_eq

theorem insert_eq_self {m : NameMap α} {name : String} {a : α}
    (h : m.get? name = some a) : m.insert name a = m := by
  refine eq_of_get?_eq fun key => ?_
  rw [get?_insert]
  split
  · rename_i hkey
    rw [hkey, h]
  · rfl

theorem erase_eq_self {m : NameMap α} {name : String}
    (h : m.get? name = none) : m.erase name = m := by
  refine eq_of_get?_eq fun key => ?_
  rw [get?_erase]
  split
  · rename_i hkey
    rw [hkey, h]
  · rfl

theorem size_insert_of_contains {m : NameMap α} {name : String}
    (h : m.contains name) (a : α) : (m.insert name a).size = m.size := by
  obtain ⟨b, hb⟩ := Option.isSome_iff_exists.1 h
  calc (m.insert name a).size = (m.erase name).size + 1 := m.size_insert name a
    _ = (m.insert name b).size := (m.size_insert name b).symm
    _ = m.size := by rw [insert_eq_self hb]

theorem size_insert_of_new {m : NameMap α} {name : String}
    (h : m.contains name = false) (a : α) :
    (m.insert name a).size = m.size + 1 := by
  rw [contains, Option.isSome_eq_false_iff, Option.isNone_iff_eq_none] at h
  rw [size_insert, erase_eq_self h]

end ZoneTables.NameMap
