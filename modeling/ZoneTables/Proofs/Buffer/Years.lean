import ZoneTables.Buffer.Replay
import ZoneTables.Proofs.Success

/-!
# The years of a replay

Which candidates a year has depends on the saving that is carried into it, and
on nothing else of the years before.  A replay is thus told by the saving with
which it enters each year.
-/

namespace ZoneTables

namespace ZoneReplay

variable {z : ZoneReplay} {first year : Int} {save before after : Int}

/-! ## One year -/

structure Collects (z : ZoneReplay) (year : Int) (starts : List Candidate)
    (pending : List Pending) : Prop where
  collected : ∃ bounds, yearBounds? year = some bounds ∧
    (∃ p ∈ z.spans.zipIdx, p.1.isActive bounds) ∧
    z.collect year bounds (z.spans.zipIdx.filter fun p => p.1.isActive bounds) =
      .ok (starts, pending)

theorem Collects.unique {starts starts' : List Candidate}
    {pending pending' : List Pending} (h : z.Collects year starts pending)
    (h' : z.Collects year starts' pending') :
    starts = starts' ∧ pending = pending' := by
  obtain ⟨bounds, hbounds, _, hcollect⟩ := h
  obtain ⟨bounds', hbounds', _, hcollect'⟩ := h'
  rw [hbounds] at hbounds'
  cases hbounds'
  rw [hcollect] at hcollect'
  cases hcollect'
  exact ⟨rfl, rfl⟩

theorem candidates_eq_ok {cs : List Candidate} :
    z.candidates year save = .ok cs ↔
      ∃ starts pending, z.Collects year starts pending ∧
        cs = Candidate.inOrder (starts ++
          Pending.candidates save none (Pending.inOrder pending)) := by
  unfold candidates
  rw [except_map_eq_ok]
  unfold found
  cases hbounds : yearBounds? year with
  | none =>
    constructor
    · rintro ⟨_, hfound, _⟩
      cases hfound
    · rintro ⟨_, _, ⟨_, hbounds', _⟩, _⟩
      rw [hbounds] at hbounds'
      cases hbounds'
  | some bounds =>
    dsimp only
    have hactive : (z.spans.zipIdx.filter fun p => p.1.isActive bounds).isEmpty =
        false ↔ ∃ p ∈ z.spans.zipIdx, p.1.isActive bounds := by
      rw [← Bool.not_eq_true, List.isEmpty_iff, List.filter_eq_nil_iff]
      push Not
      rfl
    constructor
    · rintro ⟨found, hfound, rfl⟩
      split at hfound
      · cases hfound
      · rename_i hempty
        obtain ⟨⟨starts, pending⟩, hcollect, heq⟩ :=
          except_bind_eq_ok.1 hfound
        cases heq
        exact ⟨starts, pending,
          ⟨bounds, hbounds, hactive.1 (Bool.eq_false_iff.2 hempty), hcollect⟩,
          rfl⟩
    · rintro ⟨starts, pending, ⟨bounds', hbounds', hsome, hcollect⟩, rfl⟩
      rw [hbounds] at hbounds'
      cases hbounds'
      refine ⟨_, ?_, rfl⟩
      rw [if_neg (Bool.eq_false_iff.1 (hactive.2 hsome))]
      exact except_bind_eq_ok.2 ⟨(starts, pending), hcollect, rfl⟩

/-! ## Years entered -/

inductive Enters (z : ZoneReplay) (first save : Int) : Int → Int → Prop where
  | start : Enters z first save first save
  | step {year before : Int} {cs : List Candidate} :
    Enters z first save year before → z.candidates year before = .ok cs →
    Enters z first save (year + 1) (Candidate.saveAfter before cs)

namespace Enters

theorem le (h : z.Enters first save year before) : first ≤ year := by
  induction h with
  | start => exact Int.le_refl _
  | step _ _ ih => omega

theorem trans {middle carried : Int} (h : z.Enters first save middle carried)
    (h' : z.Enters middle carried year before) :
    z.Enters first save year before := by
  induction h' with
  | start => exact h
  | step _ hcs ih => exact ih.step hcs

theorem unique (h : z.Enters first save year before)
    (h' : z.Enters first save year after) : before = after := by
  induction h generalizing after with
  | start =>
    cases h' with
    | start => rfl
    | step h' _ => exact absurd h'.le (by omega)
  | @step year before cs h hcs ih =>
    generalize hnext : year + 1 = next at h'
    cases h' with
    | start => exact absurd h.le (by omega)
    | @step year' before' cs' h' hcs' =>
      obtain rfl : year = year' := by omega
      obtain rfl := ih h'
      rw [hcs] at hcs'
      cases hcs'
      rfl

theorem exists_before (h : z.Enters first save year before) {middle : Int}
    (hfirst : first ≤ middle) (hmiddle : middle ≤ year) :
    ∃ carried, z.Enters first save middle carried ∧
      z.Enters middle carried year before := by
  induction h with
  | start =>
    obtain rfl : middle = first := by omega
    exact ⟨save, .start, .start⟩
  | @step year before cs h hcs ih =>
    by_cases heq : middle = year + 1
    · subst heq
      exact ⟨_, h.step hcs, .start⟩
    · obtain ⟨carried, hcarried, hrest⟩ := ih (by omega)
      exact ⟨carried, hcarried, hrest.step hcs⟩

theorem exists_candidates (h : z.Enters first save (year + 1) after)
    (hfirst : first ≤ year) :
    ∃ before cs, z.Enters first save year before ∧
      z.candidates year before = .ok cs := by
  generalize hnext : year + 1 = next at h
  cases h with
  | start => exact absurd hfirst (by omega)
  | @step year' before cs henters hcs =>
    obtain rfl : year = year' := by omega
    exact ⟨before, cs, henters, hcs⟩

end Enters

/-! ## The whole replay -/

theorem mem_years_iff {count : Nat} {y : ReplayedYear} :
    ∀ {done save first},
      (z.years done save first count).fault = none →
      (y ∈ (z.years done save first count).years ↔
        y ∈ done ∨ y.year < first + count ∧
          ∃ before, z.Enters first save y.year before ∧
            z.candidates y.year before = .ok y.candidates) := by
  induction count with
  | zero =>
    intro done save first _
    constructor
    · exact .inl
    · rintro (hdone | ⟨hlt, _, henters, _⟩)
      · exact hdone
      · exact absurd henters.le (by omega)
  | succ count ih =>
    intro done save first hfault
    rw [years] at hfault ⊢
    cases hcs : z.candidates first save with
    | error e =>
      rw [hcs] at hfault
      cases hfault
    | ok cs =>
      rw [hcs] at hfault
      dsimp only at hfault ⊢
      rw [ih hfault, List.mem_cons]
      have hstep : z.Enters first save (first + 1)
          (Candidate.saveAfter save cs) := Enters.start.step hcs
      constructor
      · rintro ((rfl | hdone) | ⟨hlt, before, henters, hy⟩)
        · exact .inr ⟨by dsimp only; omega, save, .start, hcs⟩
        · exact .inl hdone
        · exact .inr ⟨by omega, before, hstep.trans henters, hy⟩
      · rintro (hdone | ⟨hlt, before, henters, hy⟩)
        · exact .inl (.inr hdone)
        · by_cases hyear : y.year = first
          · obtain ⟨year, candidates⟩ := y
            dsimp only at hyear henters hy
            subst hyear
            obtain rfl := henters.unique .start
            rw [hcs] at hy
            cases hy
            exact .inl (.inl rfl)
          · have hle := henters.le
            obtain ⟨carried, hcarried, hrest⟩ :=
              henters.exists_before (by omega : first ≤ first + 1) (by omega)
            obtain rfl := hcarried.unique hstep
            exact .inr ⟨by omega, before, hrest, hy⟩

theorem exists_enters {count : Nat} :
    ∀ {done save first}, (z.years done save first count).fault = none →
      ∃ before, z.Enters first save (first + count) before := by
  induction count with
  | zero =>
    intro done save first _
    exact ⟨save, by rw [Int.natCast_zero, Int.add_zero]; exact .start⟩
  | succ count ih =>
    intro done save first hfault
    rw [years] at hfault
    cases hcs : z.candidates first save with
    | error e =>
      rw [hcs] at hfault
      cases hfault
    | ok cs =>
      rw [hcs] at hfault
      obtain ⟨before, henters⟩ := ih hfault
      have hyear : first + ((count + 1 : Nat) : Int) = first + 1 + count := by
        omega
      rw [hyear]
      exact ⟨before, (Enters.start.step hcs).trans henters⟩

/-- If it depends on the years alone whether they have candidates, a replay is
without a fault if all its years have them. -/
theorem fault_years_eq_none_iff {Q : Int → Prop} {count : Nat} :
    ∀ {done save} {first : Int},
      (∀ year, first ≤ year → year < first + count → ∀ save,
        (∃ cs, z.candidates year save = .ok cs) ↔ Q year) →
      ((z.years done save first count).fault = none ↔
        ∀ year, first ≤ year → year < first + count → Q year) := by
  induction count with
  | zero =>
    intro done save first _
    exact ⟨fun _ year hle hlt => absurd hle (by omega), fun _ => rfl⟩
  | succ count ih =>
    intro done save first hQ
    have hfirst := hQ first (by omega) (by omega) save
    rw [years]
    cases hcs : z.candidates first save with
    | error e =>
      rw [hcs] at hfirst
      constructor
      · intro hfault
        cases hfault
      · intro hall
        obtain ⟨_, hok⟩ := hfirst.2 (hall first (by omega) (by omega))
        cases hok
    | ok cs =>
      dsimp only
      rw [ih fun year hle hlt => hQ year (by omega) (by omega)]
      constructor
      · intro hall year hle hlt
        by_cases hyear : year = first
        · rw [hyear]
          exact hfirst.1 ⟨cs, hcs⟩
        · exact hall year (by omega) (by omega)
      · exact fun hall year hle hlt => hall year (by omega) (by omega)

theorem exists_of_fault_years {count : Nat} {e : BufferError} :
    ∀ {done save first}, (z.years done save first count).fault = some e →
      ∃ year before, first ≤ year ∧ year < first + count ∧
        z.candidates year before = .error e := by
  induction count with
  | zero =>
    intro done save first hfault
    cases hfault
  | succ count ih =>
    intro done save first hfault
    rw [years] at hfault
    cases hcs : z.candidates first save with
    | error e' =>
      rw [hcs] at hfault
      cases hfault
      exact ⟨first, save, by omega, by omega, hcs⟩
    | ok cs =>
      rw [hcs] at hfault
      obtain ⟨year, before, hle, hlt, hyear⟩ := ih hfault
      exact ⟨year, before, by omega, by omega, hyear⟩

theorem window_of_fault_eq_none {w : Window} (hlt : w.start < w.stop)
    (h : (z.window w).fault = none) :
    ∃ save, z.initialSave (w.start - 1) = .ok save ∧
      (∃ after, z.Enters (w.start - 1) save (w.stop + 1) after) ∧
      ∀ y, y ∈ (z.window w).years ↔ y.year ≤ w.stop ∧
        ∃ before, z.Enters (w.start - 1) save y.year before ∧
          z.candidates y.year before = .ok y.candidates := by
  unfold window at h ⊢
  cases hsave : z.initialSave (w.start - 1) with
  | error e =>
    rw [hsave] at h
    cases h
  | ok save =>
    rw [hsave] at h
    dsimp only at h ⊢
    have hcount : w.start - 1 + ((w.stop + 1 - (w.start - 1)).toNat : Int) =
        w.stop + 1 := by
      omega
    refine ⟨save, rfl, ?_, fun y => ?_⟩
    · obtain ⟨after, henters⟩ := exists_enters h
      rw [hcount] at henters
      exact ⟨after, henters⟩
    · rw [mem_years_iff h, hcount]
      constructor
      · rintro (hnil | ⟨hyear, hbefore⟩)
        · exact absurd hnil List.not_mem_nil
        · exact ⟨by omega, hbefore⟩
      · rintro ⟨hyear, hbefore⟩
        exact .inr ⟨by omega, hbefore⟩

end ZoneReplay

end ZoneTables
