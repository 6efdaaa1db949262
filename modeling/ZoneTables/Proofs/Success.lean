import ZoneTables.Database.Review
import ZoneTables.NameMap.Lookup
import Mathlib.Data.List.Forall2

/-!
# When composed steps succeed

Results, reviews and walks over maps are put together from steps that can
fail.  A composition succeeds exactly if its steps do, each on what the one
before it gave, and this module says so once for every form of composition.
-/

namespace ZoneTables

variable {α β γ ε : Type}

/-! ## Results -/

theorem except_isOk_iff {x : Except ε α} : x.isOk ↔ ∃ a, x = .ok a := by
  cases x with
  | error e => exact ⟨nofun, fun ⟨_, h⟩ => nomatch h⟩
  | ok a => exact ⟨fun _ => ⟨a, rfl⟩, fun _ => rfl⟩

theorem except_toOption_eq_some {x : Except ε α} {a : α} :
    x.toOption = some a ↔ x = .ok a := by
  cases x with
  | error e => exact ⟨nofun, nofun⟩
  | ok b => exact ⟨fun h => by cases h; rfl, fun h => by cases h; rfl⟩

theorem exists_eq_ok_of_toOption {x : Except ε α} {P : α → Prop}
    (h : ∃ a ∈ x.toOption, P a) : ∃ a, x = .ok a ∧ P a := by
  obtain ⟨a, ha, hP⟩ := h
  cases x with
  | error e => cases ha
  | ok b =>
    cases ha
    exact ⟨a, rfl, hP⟩

theorem except_bind_eq_ok {x : Except ε α} {f : α → Except ε β} {b : β} :
    (x >>= f) = .ok b ↔ ∃ a, x = .ok a ∧ f a = .ok b := by
  cases x with
  | error e => exact ⟨nofun, fun ⟨_, h, _⟩ => nomatch h⟩
  | ok a => exact ⟨fun h => ⟨a, rfl, h⟩, fun ⟨_, h, hf⟩ => by cases h; exact hf⟩

theorem except_bind_eq_error {x : Except ε α} {f : α → Except ε β} {e : ε} :
    (x >>= f) = .error e ↔ x = .error e ∨ ∃ a, x = .ok a ∧ f a = .error e := by
  cases x with
  | error e' =>
    exact ⟨fun h => .inl (by cases h; rfl),
      fun h => h.elim (fun h => by cases h; rfl) fun ⟨_, h, _⟩ => nomatch h⟩
  | ok a =>
    exact ⟨fun h => .inr ⟨a, rfl, h⟩,
      fun h => h.elim nofun fun ⟨_, h, hf⟩ => by cases h; exact hf⟩

theorem except_ite_eq_ok {p : Prop} [Decidable p] {x : Except ε α} {e : ε}
    {a : α} : (if p then .error e else x) = .ok a ↔ ¬ p ∧ x = .ok a := by
  by_cases hp : p
  · simp [hp]
  · simp [hp]

theorem except_map_eq_ok {x : Except ε α} {f : α → β} {b : β} :
    x.map f = .ok b ↔ ∃ a, x = .ok a ∧ f a = b := by
  cases x with
  | error e => exact ⟨nofun, fun ⟨_, h, _⟩ => nomatch h⟩
  | ok a =>
    exact ⟨fun h => ⟨a, rfl, by cases h; rfl⟩, fun ⟨_, h, hf⟩ => by cases h; rw [← hf]; rfl⟩

theorem except_mapM_eq_ok {f : α → Except ε β} {l : List α} {r : List β} :
    l.mapM f = .ok r ↔ List.Forall₂ (fun a b => f a = .ok b) l r := by
  induction l generalizing r with
  | nil =>
    rw [List.mapM_nil, List.forall₂_nil_left_iff]
    exact ⟨fun h => by cases h; rfl, fun h => by rw [h]; rfl⟩
  | cons a l ih =>
    rw [List.mapM_cons, except_bind_eq_ok, List.forall₂_cons_left_iff]
    constructor
    · rintro ⟨b, hb, h⟩
      obtain ⟨bs, hbs, h⟩ := except_bind_eq_ok.1 h
      cases h
      exact ⟨b, bs, hb, ih.1 hbs, rfl⟩
    · rintro ⟨b, bs, hb, hbs, rfl⟩
      exact ⟨b, hb, except_bind_eq_ok.2 ⟨bs, ih.2 hbs, rfl⟩⟩

theorem forall₂_exists_left {R : α → β → Prop} {l : List α} {r : List β}
    (h : List.Forall₂ R l r) {b : β} (hb : b ∈ r) : ∃ a ∈ l, R a b := by
  induction h with
  | nil => exact absurd hb List.not_mem_nil
  | cons hab _ ih =>
    rcases List.mem_cons.1 hb with rfl | hb
    · exact ⟨_, List.mem_cons_self, hab⟩
    · obtain ⟨a, ha, hR⟩ := ih hb
      exact ⟨a, List.mem_cons_of_mem _ ha, hR⟩

theorem exists_forall₂_iff {R : α → β → Prop} {l : List α} :
    (∃ r, List.Forall₂ R l r) ↔ ∀ a ∈ l, ∃ b, R a b := by
  constructor
  · rintro ⟨r, h⟩ a ha
    obtain ⟨b, _, hab⟩ := forall₂_exists_left h.flip ha
    exact ⟨b, hab⟩
  · intro h
    induction l with
    | nil => exact ⟨[], .nil⟩
    | cons a l ih =>
      rw [List.forall_mem_cons] at h
      obtain ⟨b, hb⟩ := h.1
      obtain ⟨r, hr⟩ := ih h.2
      exact ⟨b :: r, .cons hb hr⟩

theorem exists_of_mapM_eq_error {f : α → Except ε β} {l : List α} {e : ε}
    (h : l.mapM f = .error e) : ∃ a ∈ l, f a = .error e := by
  induction l with
  | nil => cases h
  | cons a l ih =>
    rw [List.mapM_cons, except_bind_eq_error] at h
    rcases h with h | ⟨b, _, h⟩
    · exact ⟨a, List.mem_cons_self, h⟩
    · rcases except_bind_eq_error.1 h with h | ⟨_, _, h⟩
      · obtain ⟨a', hmem, ha'⟩ := ih h
        exact ⟨a', List.mem_cons_of_mem _ hmem, ha'⟩
      · cases h

theorem exists_mapM_eq_ok {f : α → Except ε β} {l : List α} :
    (∃ r, l.mapM f = .ok r) ↔ ∀ a ∈ l, ∃ b, f a = .ok b := by
  simp only [except_mapM_eq_ok, exists_forall₂_iff]

theorem option_mapM_eq_some {f : α → Option β} {l : List α} {r : List β} :
    l.mapM f = some r ↔ List.Forall₂ (fun a b => f a = some b) l r := by
  induction l generalizing r with
  | nil => simp
  | cons a l ih =>
    rw [List.mapM_cons, List.forall₂_cons_left_iff]
    simp only [Option.bind_eq_bind, Option.bind_eq_some_iff, Option.pure_def,
      Option.some.injEq, ih]
    constructor
    · rintro ⟨b, hb, bs, hbs, rfl⟩
      exact ⟨b, bs, hb, hbs, rfl⟩
    · rintro ⟨b, bs, hb, hbs, rfl⟩
      exact ⟨b, hb, bs, hbs, rfl⟩

theorem guard_bind_of {p : Prop} [Decidable p] (hp : p) (x : Option β) :
    ((guard p : Option Unit) >>= fun _ => x) = x := by
  unfold guard
  rw [if_pos hp]
  rfl

/-! ## Reviews -/

namespace Review

@[simp] theorem result_keep (a : α) : (keep a).result = .ok a := rfl

@[simp] theorem result_remove (why : Removal) :
    (remove why : Review α).result = .error why := rfl

@[simp] theorem result_pure (a : α) : (pure a : Review α).result = .ok a := rfl

@[simp] theorem result_note (n : Note) : (note n).result = .ok () := rfl

@[simp] theorem result_bind (r : Review α) (f : α → Review β) :
    (r >>= f).result = r.result >>= fun a => (f a).result := by
  change (andThen r f).result = _
  rw [andThen]
  cases r.result <;> rfl

theorem result_bind_eq_ok {r : Review α} {f : α → Review β} {b : β} :
    (r >>= f).result = .ok b ↔
      ∃ a, r.result = .ok a ∧ (f a).result = .ok b := by
  rw [result_bind, except_bind_eq_ok]

theorem result_forAll_eq_ok {f : α → Review β} {l : List α} {r : List β} :
    (forAll f l).result = .ok r ↔
      List.Forall₂ (fun a b => (f a).result = .ok b) l r := by
  induction l generalizing r with
  | nil =>
    rw [List.forall₂_nil_left_iff]
    exact ⟨fun h => by cases h; rfl, fun h => by rw [h]; rfl⟩
  | cons a l ih =>
    rw [forAll, result_bind_eq_ok, List.forall₂_cons_left_iff]
    constructor
    · rintro ⟨b, hb, h⟩
      obtain ⟨bs, hbs, h⟩ := result_bind_eq_ok.1 h
      cases h
      exact ⟨b, bs, hb, ih.1 hbs, rfl⟩
    · rintro ⟨b, bs, hb, hbs, rfl⟩
      exact ⟨b, hb, result_bind_eq_ok.2 ⟨bs, ih.2 hbs, rfl⟩⟩

theorem kept?_eq_some {r : Review α} {a : α} :
    r.kept? = some a ↔ r.result = .ok a := by
  rw [kept?, except_toOption_eq_some]

end Review

/-! ## Maps -/

namespace NameMap

theorem get?_review {subject : Subject} {f : String → α → Review β}
    {m : NameMap α} {name : String} :
    (m.review subject f).kept.get? name =
      (m.get? name).bind fun a => (f name a).kept? := by
  rw [review, get?_filterMap, get?_map]
  cases m.get? name <;> rfl

theorem get?_kept_review {subject : Subject} {f : String → α → Review β}
    {m : NameMap α} {name : String} {b : β} :
    (m.review subject f).kept.get? name = some b ↔
      ∃ a, m.get? name = some a ∧ (f name a).result = .ok b := by
  rw [get?_review, Option.bind_eq_some_iff]
  simp only [Review.kept?_eq_some]

theorem traverseEntries_eq_ok {f : String → α → Except ε β}
    {l : List (String × α)} {r : List (String × β)} :
    traverseEntries f l = .ok r ↔
      List.Forall₂ (fun p q => q.1 = p.1 ∧ f p.1 p.2 = .ok q.2) l r := by
  induction l generalizing r with
  | nil =>
    rw [List.forall₂_nil_left_iff, traverseEntries]
    exact ⟨fun h => by cases h; rfl, fun h => by rw [h]⟩
  | cons p l ih =>
    obtain ⟨name, a⟩ := p
    rw [List.forall₂_cons_left_iff, traverseEntries]
    constructor
    · intro h
      split at h
      · cases h
      · rename_i b hb
        split at h
        · cases h
        · rename_i bs hbs
          cases h
          exact ⟨(name, b), bs, ⟨rfl, hb⟩, ih.1 hbs, rfl⟩
    · rintro ⟨⟨name', b⟩, bs, ⟨hname, hb⟩, hbs, rfl⟩
      dsimp only at hname hb
      subst hname
      rw [hb, ih.2 hbs]

theorem traverse_eq_ok {f : String → α → Except ε β} {m : NameMap α}
    {n : NameMap β} :
    m.traverse f = .ok n ↔
      List.Forall₂ (fun p q => q.1 = p.1 ∧ f p.1 p.2 = .ok q.2)
        m.entries n.entries := by
  rw [← traverseEntries_eq_ok, traverse]
  split
  · rename_i e he
    rw [he]
    exact ⟨nofun, nofun⟩
  · rename_i r hr
    constructor
    · intro h
      cases h
      exact hr
    · intro h
      cases n
      cases hr.symm.trans h
      rfl

theorem traverse_map {f : String → β → Except ε γ} {g : String → α → β}
    {m : NameMap α} :
    (m.map g).traverse f = m.traverse fun name a => f name (g name a) := by
  have hentries : ∀ l : List (String × α),
      traverseEntries f (l.map fun p => (p.1, g p.1 p.2)) =
        traverseEntries (fun name a => f name (g name a)) l := by
    intro l
    induction l with
    | nil => rfl
    | cons p l ih => rw [List.map_cons, traverseEntries, ih, traverseEntries]
  have hmap := hentries m.entries
  rw [← entries_map] at hmap
  unfold traverse
  split <;> split <;> simp_all

theorem keys_eq_of_forall₂ {R : String × α → String × β → Prop}
    {m : NameMap α} {n : NameMap β}
    (h : List.Forall₂ (fun p q => q.1 = p.1 ∧ R p q) m.entries n.entries) :
    n.keys = m.keys := by
  unfold keys
  generalize m.entries = l at h
  generalize n.entries = r at h
  induction h with
  | nil => rfl
  | cons hab _ ih => rw [List.map_cons, List.map_cons, hab.1, ih]

theorem get?_of_traverse {f : String → α → Except ε β} {m : NameMap α}
    {n : NameMap β} (h : m.traverse f = .ok n) {name : String} {b : β} :
    n.get? name = some b ↔ ∃ a, m.get? name = some a ∧ f name a = .ok b := by
  have hall := traverse_eq_ok.1 h
  have hto : ∀ {name a}, m.get? name = some a →
      ∃ b, n.get? name = some b ∧ f name a = .ok b := by
    intro name a ha
    obtain ⟨⟨name', b⟩, hmem, hname, hb⟩ :=
      forall₂_exists_left hall.flip (get?_eq_some_iff.1 ha)
    dsimp only at hname hb
    subst hname
    exact ⟨b, get?_eq_some_iff.2 hmem, hb⟩
  constructor
  · intro hb
    obtain ⟨⟨name', a⟩, hmem, hname, hf⟩ :=
      forall₂_exists_left hall (get?_eq_some_iff.1 hb)
    dsimp only at hname hf
    subst hname
    exact ⟨a, get?_eq_some_iff.2 hmem, hf⟩
  · rintro ⟨a, ha, hf⟩
    obtain ⟨b', hb', hf'⟩ := hto ha
    rw [hf] at hf'
    cases hf'
    exact hb'

theorem exists_of_traverseEntries_eq_error {f : String → α → Except ε β}
    {l : List (String × α)} {e : ε} (h : traverseEntries f l = .error e) :
    ∃ p ∈ l, f p.1 p.2 = .error e := by
  induction l with
  | nil => cases h
  | cons p l ih =>
    obtain ⟨name, a⟩ := p
    rw [traverseEntries] at h
    split at h
    · rename_i hf
      cases h
      exact ⟨_, List.mem_cons_self, hf⟩
    · split at h
      · rename_i hrest
        cases h
        obtain ⟨p, hmem, hp⟩ := ih hrest
        exact ⟨p, List.mem_cons_of_mem _ hmem, hp⟩
      · cases h

theorem exists_of_traverse_eq_error {f : String → α → Except ε β}
    {m : NameMap α} {e : ε} (h : m.traverse f = .error e) :
    ∃ name a, m.get? name = some a ∧ f name a = .error e := by
  unfold traverse at h
  split at h
  · rename_i he
    cases h
    obtain ⟨p, hmem, hp⟩ := exists_of_traverseEntries_eq_error he
    exact ⟨p.1, p.2, get?_eq_some_iff.2 hmem, hp⟩
  · cases h

theorem exists_traverse_eq_ok {f : String → α → Except ε β} {m : NameMap α} :
    (∃ n, m.traverse f = .ok n) ↔
      ∀ name a, m.get? name = some a → ∃ b, f name a = .ok b := by
  constructor
  · rintro ⟨n, hn⟩ name a ha
    obtain ⟨⟨_, b⟩, _, _, hb⟩ :=
      forall₂_exists_left (traverse_eq_ok.1 hn).flip (get?_eq_some_iff.1 ha)
    exact ⟨b, hb⟩
  · intro hall
    cases hwalk : m.traverse f with
    | ok n => exact ⟨n, rfl⟩
    | error e =>
      obtain ⟨name, a, ha, he⟩ := exists_of_traverse_eq_error hwalk
      obtain ⟨b, hb⟩ := hall name a ha
      rw [he] at hb
      cases hb

end NameMap

end ZoneTables
