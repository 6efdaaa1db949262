import ZoneTables.Choice
import ZoneTables.Proofs.Calendar.DayNumbers
import ZoneTables.Proofs.Clock
import ZoneTables.Proofs.Database.Places

/-!
# Computations in words of 32 bits

Numbers of the library are unbounded.  A checked computation makes each number in
a word of 32 bits and each date within the years that dates are made for, and has
no result if one does not fit.  A checked version of a function has the shape of
the function, with checked operations in the place of arithmetic; it says that no
number overflows by being equal to the function.

Seconds since 1970 and codes of fields are numbers of 64 bits, lengths and
positions are sizes of memory, and the hash of a name wraps on purpose: none of
these is checked.
-/

namespace ZoneTables

inductive Overflow where
  | signed (n : Int)
  | unsigned (n : Int)
  | date (d : Date)

abbrev Checked := Except Overflow

namespace Checked

variable {α β ε : Type}

/-! ## Operations -/

def signed (n : Int) : Checked Int :=
  if -2147483648 ≤ n ∧ n ≤ 2147483647 then .ok n else .error (.signed n)

def unsigned (n : Int) : Checked Nat :=
  if 0 ≤ n ∧ n ≤ 4294967295 then .ok n.toNat else .error (.unsigned n)

/-- A date that was stepped to. -/
def date (d : Date) : Checked Date :=
  if Date.firstYear ≤ d.year ∧ d.year ≤ Date.lastYear then .ok d
  else .error (.date d)

def add (a b : Int) : Checked Int := signed (a + b)

def sub (a b : Int) : Checked Int := signed (a - b)

def mul (a b : Int) : Checked Int := signed (a * b)

def neg (a : Int) : Checked Int := signed (-a)

/-- The quotient toward zero. -/
def quot (a b : Int) : Checked Int := signed (a.tdiv b)

example : sub (-2147483648) 1 = .error (.signed (-2147483649)) := rfl

theorem signed_eq {n : Int} (h : -2147483648 ≤ n ∧ n ≤ 2147483647) :
    signed n = .ok n := if_pos h

theorem unsigned_eq {n : Nat} (h : n ≤ 4294967295) : unsigned n = .ok n :=
  if_pos ⟨by omega, by omega⟩

theorem date_eq {d : Date} (h : Date.firstYear ≤ d.year ∧ d.year ≤ Date.lastYear) :
    date d = .ok d := if_pos h

/-- Amounts of time that are read, and sums of two of them, fit. -/
theorem signed_of_natAbs_le {n : Int} (h : n.natAbs ≤ 2 * Clock.greatest) :
    signed n = .ok n := by
  unfold Clock.greatest at h
  exact signed_eq (by omega)

/-- Years of tables fit, and so do those of one cycle of the calendar behind
them. -/
theorem signed_of_year {n : Int} (h : Year.least - 1 ≤ n)
    (h' : n ≤ Year.never + 399) : signed n = .ok n := by
  unfold Year.least at h
  unfold Year.never at h'
  exact signed_eq (by omega)

theorem add_one_eq {year : Int} (h : Year.least - 1 ≤ year) (h' : year ≤ Year.never) :
    add year 1 = .ok (year + 1) := signed_of_year (by omega) (by omega)

theorem sub_one_eq {year : Int} (h : Year.least ≤ year) (h' : year ≤ Year.never) :
    sub year 1 = .ok (year - 1) := signed_of_year (by omega) (by omega)

/-! ## Steps -/

@[simp] theorem ok_bind (a : α) (f : α → Checked β) :
    (Except.ok a >>= f) = f a := rfl

@[simp] theorem pure_eq (a : α) : (pure a : Checked α) = .ok a := rfl

theorem bind_eq {x : Checked α} {a : α} {f : α → Checked β} {b : Checked β}
    (hx : x = .ok a) (hf : f a = b) : (x >>= f) = b := by
  rw [hx, ok_bind, hf]

theorem mapM_eq {f : α → Checked β} {g : α → β} :
    ∀ {l : List α}, (∀ a ∈ l, f a = .ok (g a)) → l.mapM f = .ok (l.map g)
  | [], _ => rfl
  | a :: l, h => by
    rw [List.forall_mem_cons] at h
    rw [List.mapM_cons, h.1, ok_bind, mapM_eq h.2]
    rfl

theorem filterMapM_eq {f : α → Checked (Option β)} {g : α → Option β} :
    ∀ {l : List α}, (∀ a ∈ l, f a = .ok (g a)) →
      l.filterMapM f = .ok (l.filterMap g)
  | [], _ => rfl
  | a :: l, h => by
    rw [List.forall_mem_cons] at h
    rw [List.filterMapM_cons, h.1, ok_bind, filterMapM_eq h.2, List.filterMap_cons]
    cases g a <;> rfl

theorem findSomeM?_eq {f : α → Checked (Option β)} {g : α → Option β} :
    ∀ {l : List α}, (∀ a ∈ l, f a = .ok (g a)) →
      l.findSomeM? f = .ok (l.findSome? g)
  | [], _ => rfl
  | a :: l, h => by
    rw [List.forall_mem_cons] at h
    rw [List.findSomeM?_cons, h.1, ok_bind, List.findSome?_cons]
    cases g a with
    | some b => rfl
    | none => exact findSomeM?_eq h.2

theorem anyM_eq {f : α → Checked Bool} {p : α → Bool} :
    ∀ {l : List α}, (∀ a ∈ l, f a = .ok (p a)) → l.anyM f = .ok (l.any p)
  | [], _ => rfl
  | a :: l, h => by
    rw [List.forall_mem_cons] at h
    rw [List.anyM_cons, h.1, ok_bind, List.any_cons]
    cases p a with
    | true => rfl
    | false => exact anyM_eq h.2

theorem traverse_eq {f : String → α → Checked β} {g : String → α → β}
    {m : NameMap α} (h : ∀ name a, m.get? name = some a → f name a = .ok (g name a)) :
    m.traverse f = .ok (m.map g) := by
  rw [NameMap.traverse_eq_ok, NameMap.entries_map, List.forall₂_map_right_iff,
    List.forall₂_same]
  exact fun p hp => ⟨rfl, h p.1 p.2 (NameMap.get?_eq_some_iff.2 hp)⟩

def review (subject : Subject) (f : String → α → Checked (Review β))
    (m : NameMap α) : Checked (Reviewed β) := do
  let reviews ← m.traverse f
  return reviews.review subject fun _ r => r

theorem review_eq {subject : Subject} {f : String → α → Checked (Review β)}
    {g : String → α → Review β} {m : NameMap α}
    (h : ∀ name a, m.get? name = some a → f name a = .ok (g name a)) :
    review subject f m = .ok (m.review subject g) := by
  rw [review, traverse_eq h, ok_bind, NameMap.review_map]
  rfl

def forAll (f : α → Checked (Review β)) : List α → Checked (Review (List β))
  | [] => return .keep []
  | a :: rest => do
    let first ← f a
    let others ← forAll f rest
    return do
      let b ← first
      let bs ← others
      return b :: bs

theorem forAll_eq {f : α → Checked (Review β)} {g : α → Review β} :
    ∀ {l : List α}, (∀ a ∈ l, f a = .ok (g a)) →
      forAll f l = .ok (Review.forAll g l)
  | [], _ => rfl
  | a :: l, h => by
    rw [List.forall_mem_cons] at h
    rw [forAll, h.1, ok_bind, forAll_eq h.2]
    rfl

theorem foldlM_eq {step : β → α → Checked β} {g : β → α → β} (I : β → Prop) :
    ∀ {l : List α} {b : β}, I b →
      (∀ b, I b → ∀ a ∈ l, step b a = .ok (g b a) ∧ I (g b a)) →
      l.foldlM step b = .ok (l.foldl g b)
  | [], _, _, _ => rfl
  | a :: l, b, hb, h => by
    obtain ⟨hstep, hnext⟩ := h b hb a List.mem_cons_self
    rw [List.foldlM_cons, hstep, ok_bind, List.foldl_cons]
    exact foldlM_eq I hnext fun b hb a ha => h b hb a (List.mem_cons_of_mem _ ha)

def choose? (preferred : α → α → Checked Bool) (l : List α) : Checked (Option α) :=
  l.foldlM
    (fun best a =>
      match best with
      | none => return some a
      | some b => return if ← preferred a b then some a else some b)
    none

theorem choose?_eq {preferred : α → α → Checked Bool} {p : α → α → Bool}
    {l : List α} (h : ∀ a ∈ l, ∀ b ∈ l, preferred a b = .ok (p a b)) :
    choose? preferred l = .ok (ZoneTables.choose? p l) := by
  refine foldlM_eq (fun best => ∀ b ∈ best, b ∈ l) nofun ?_
  intro best hbest a ha
  cases best with
  | none => exact ⟨rfl, by simpa using ha⟩
  | some b =>
    have hb := hbest b rfl
    refine ⟨by simp [h a ha b hb], ?_⟩
    dsimp only
    split
    · simpa using ha
    · simpa using hb

end Checked

end ZoneTables
