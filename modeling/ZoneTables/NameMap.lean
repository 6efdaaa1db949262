/-!
# Maps from names

A finite map from names to values that lists its entries by name.  Names are
compared by their characters, which is the order of their UTF-8 bytes.  The
order is part of the type, so every walk over a map is in name order.
-/

namespace ZoneTables

/-- A finite map from names, in strictly increasing order of names. -/
structure NameMap (α : Type) where
  entries : List (String × α)
  sorted : entries.Pairwise fun a b => a.1 < b.1
deriving DecidableEq

namespace NameMap

variable {α β ε : Type}

def empty : NameMap α := ⟨[], .nil⟩

instance : Inhabited (NameMap α) := ⟨empty⟩

def keys (m : NameMap α) : List String := m.entries.map Prod.fst

def values (m : NameMap α) : List α := m.entries.map Prod.snd

def size (m : NameMap α) : Nat := m.entries.length

def isEmpty (m : NameMap α) : Bool := m.entries.isEmpty

def lookup (name : String) : List (String × α) → Option α
  | [] => none
  | (key, value) :: rest =>
    if name = key then some value else lookup name rest

def get? (m : NameMap α) (name : String) : Option α := lookup name m.entries

def contains (m : NameMap α) (name : String) : Bool := (m.get? name).isSome

def indexOf? (m : NameMap α) (name : String) : Option Nat :=
  m.keys.findIdx? (· == name)

def insertEntry (name : String) (value : α) :
    List (String × α) → List (String × α)
  | [] => [(name, value)]
  | (key, old) :: rest =>
    if name < key then (name, value) :: (key, old) :: rest
    else if name = key then (name, value) :: rest
    else (key, old) :: insertEntry name value rest

theorem key_of_mem_insertEntry {name : String} {value : α} {p : String × α} :
    ∀ {l : List (String × α)}, p ∈ insertEntry name value l →
      p.1 = name ∨ p ∈ l
  | [], h => by
    simp only [insertEntry, List.mem_singleton] at h
    exact .inl (h ▸ rfl)
  | (key, old) :: rest, h => by
    simp only [insertEntry] at h
    split at h
    · rcases List.mem_cons.1 h with h | h
      · exact .inl (h ▸ rfl)
      · exact .inr h
    · split at h
      · rcases List.mem_cons.1 h with h | h
        · exact .inl (h ▸ rfl)
        · exact .inr (List.mem_cons_of_mem _ h)
      · rcases List.mem_cons.1 h with h | h
        · exact .inr (h ▸ List.mem_cons_self)
        · exact (key_of_mem_insertEntry h).imp id (List.mem_cons_of_mem _)

theorem sorted_insertEntry {name : String} {value : α} :
    ∀ {l : List (String × α)}, l.Pairwise (fun a b => a.1 < b.1) →
      (insertEntry name value l).Pairwise fun a b => a.1 < b.1
  | [], _ => by simp [insertEntry]
  | (key, old) :: rest, h => by
    obtain ⟨hhead, hrest⟩ := List.pairwise_cons.1 h
    simp only [insertEntry]
    split
    · rename_i hlt
      refine List.pairwise_cons.2 ⟨fun p hp => ?_, h⟩
      rcases List.mem_cons.1 hp with hp | hp
      · exact hp ▸ hlt
      · exact String.lt_trans hlt (hhead p hp)
    · rename_i hlt
      split
      · rename_i heq
        exact List.pairwise_cons.2 ⟨fun p hp => heq ▸ hhead p hp, hrest⟩
      · rename_i hne
        refine List.pairwise_cons.2 ⟨fun p hp => ?_, sorted_insertEntry hrest⟩
        rcases key_of_mem_insertEntry hp with hp | hp
        · exact hp ▸ Std.lt_of_le_of_ne (String.not_lt.1 hlt) (Ne.symm hne)
        · exact hhead p hp

def insert (m : NameMap α) (name : String) (value : α) : NameMap α :=
  ⟨insertEntry name value m.entries, sorted_insertEntry m.sorted⟩

/-- The map with the value of a name changed; `none` is a missing value. -/
def alter (m : NameMap α) (name : String) (f : Option α → α) : NameMap α :=
  m.insert name (f (m.get? name))

/-- The map of a list of entries, of which a later one wins. -/
def ofList (l : List (String × α)) : NameMap α :=
  l.foldl (fun m p => m.insert p.1 p.2) empty

def filterMap (f : String → α → Option β) (m : NameMap α) : NameMap β where
  entries := m.entries.filterMap fun p => (f p.1 p.2).map fun b => (p.1, b)
  sorted := by
    refine List.pairwise_filterMap.2 (m.sorted.imp fun hab p hp q hq => ?_)
    obtain ⟨_, _, rfl⟩ := Option.map_eq_some_iff.1 hp
    obtain ⟨_, _, rfl⟩ := Option.map_eq_some_iff.1 hq
    exact hab

def map (f : String → α → β) (m : NameMap α) : NameMap β :=
  m.filterMap fun name a => some (f name a)

def filter (p : String → α → Bool) (m : NameMap α) : NameMap α :=
  m.filterMap fun name a => if p name a then some a else none

def erase (m : NameMap α) (name : String) : NameMap α :=
  m.filter fun key _ => key != name

def traverseEntries (f : String → α → Except ε β) :
    List (String × α) → Except ε (List (String × β))
  | [] => .ok []
  | (name, a) :: rest =>
    match f name a with
    | .error e => .error e
    | .ok b =>
      match traverseEntries f rest with
      | .error e => .error e
      | .ok bs => .ok ((name, b) :: bs)

theorem keys_of_traverseEntries {f : String → α → Except ε β} :
    ∀ {l : List (String × α)} {r : List (String × β)},
      traverseEntries f l = .ok r → r.map Prod.fst = l.map Prod.fst
  | [], r, h => by
    cases h
    rfl
  | (name, a) :: rest, r, h => by
    simp only [traverseEntries] at h
    split at h
    · cases h
    · split at h
      · cases h
      · rename_i hrest
        cases h
        simp [keys_of_traverseEntries hrest]

/-- Changes every value in name order, up to the first failure. -/
def traverse (f : String → α → Except ε β) (m : NameMap α) :
    Except ε (NameMap β) :=
  match h : traverseEntries f m.entries with
  | .error e => .error e
  | .ok r =>
    .ok ⟨r, List.pairwise_map.1 <| keys_of_traverseEntries h ▸
      List.pairwise_map.2 m.sorted⟩

end NameMap

abbrev NameSet := NameMap Unit

namespace NameSet

def insert (s : NameSet) (name : String) : NameSet :=
  NameMap.insert s name ()

def ofList (names : List String) : NameSet :=
  names.foldl insert NameMap.empty

end NameSet

end ZoneTables
