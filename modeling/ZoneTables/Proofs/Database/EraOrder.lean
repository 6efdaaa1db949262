import Mathlib.Data.Prod.Lex
import ZoneTables.Proofs.Database.Contents

/-!
# The order of eras

The eras of a made zone end one after the other, by the dates and times of day
of their ends, up to the last one, which is the only one that does not end.
This holds whatever the window cuts off at both sides, and however the years
of the source jump back and forth.
-/

namespace ZoneTables

def Until.key (u : Until) : Int ×ₗ (Nat ×ₗ (Nat ×ₗ Int)) :=
  toLex (u.year, toLex (u.month, toLex (u.day, u.seconds)))

theorem Until.isBefore_iff_key_lt {a b : Until} :
    a.isBefore b ↔ a.key < b.key := by
  unfold isBefore key
  simp [Prod.Lex.toLex_lt_toLex]

theorem Until.year_le_of_key_lt {a b : Until} (h : a.key < b.key) :
    a.year ≤ b.year := by
  rw [← isBefore_iff_key_lt] at h
  unfold isBefore at h
  rw [decide_eq_true_eq] at h
  omega

/-- The check of neighbours passes exactly if all ends are in order, because
the order of ends is transitive. -/
theorem outOfOrder?_eq_none {eras : List Era} :
    outOfOrder? eras = none ↔
      eras.Pairwise fun a b => a.ends.key < b.ends.key := by
  have hchain : ∀ eras, outOfOrder? eras = none ↔
      eras.IsChain fun a b => a.ends.key < b.ends.key := by
    intro eras
    induction eras with
    | nil => simp [outOfOrder?]
    | cons a rest ih =>
      cases rest with
      | nil => simp [outOfOrder?]
      | cons b rest =>
        rw [outOfOrder?, List.isChain_cons_cons, ← ih,
          ← Until.isBefore_iff_key_lt]
        cases a.ends.isBefore b.ends <;> simp
  have htrans : IsTrans Era fun a b => a.ends.key < b.ends.key :=
    ⟨fun _ _ _ hab hbc => lt_trans hab hbc⟩
  rw [hchain, List.isChain_iff_pairwise]

theorem MadeOf.pairwise_key {o : Options} {s : Source} {db : Database}
    (h : MadeOf o s db) {zone : String} {eras : List Era}
    (hzone : db.zones.get? zone = some eras) :
    eras.Pairwise fun a b => a.ends.key < b.ends.key := by
  obtain ⟨sources, _, _, hresolve⟩ := h.exists_zone hzone
  exact outOfOrder?_eq_none.1 (resolveZone_eq_ok.1 hresolve).2

/-- A zone of a made database has eras, each of which ends later than the one
before it, and the last one is the only one without an end. -/
theorem MadeFrom.eras_end_in_order {o : Options} {texts : List SourceText}
    {db : Database} (h : MadeFrom o texts db) {zone : String}
    {eras : List Era} (hzone : db.zones.get? zone = some eras) :
    eras ≠ [] ∧ (eras.Pairwise fun a b => a.ends.key < b.ends.key) ∧
      ∃ front last, eras = front ++ [last] ∧ last.ends.isEndless = true ∧
        ∀ era ∈ front, era.ends.isEndless = false := by
  obtain ⟨s, hmade, _⟩ := h.exists_source
  obtain ⟨front, last, rfl, hfront, hlast⟩ := hmade.joined hzone
  refine ⟨?_, hmade.pairwise_key hzone, front, last, rfl, hlast, hfront⟩
  apply List.append_ne_nil_of_right_ne_nil
  exact List.cons_ne_nil _ _

/-- A zone whose years jump back, before the window and behind it. -/
def jumpingText : SourceText where
  name := "t"
  text := "Z Z 0 - A 1990\n" ++
    " 1 - B 1950\n" ++
    " 2 - C 2000 Mar lastSun 1:00u\n" ++
    " 3 - D 2000 Apr\n" ++
    " 4 - E 2050\n" ++
    " 5 - F 2040\n" ++
    " 6 - G\n"

theorem eras_end_in_order_jumpingText :
    ∃ db eras, MadeFrom twoYears [jumpingText] db ∧
      db.zones.get? "Z" = some eras ∧ eras.map Era.format = ["C", "D", "E"] ∧
      eras ≠ [] ∧ (eras.Pairwise fun a b => a.ends.key < b.ends.key) ∧
      ∃ front last, eras = front ++ [last] ∧ last.ends.isEndless = true ∧
        ∀ era ∈ front, era.ends.isEndless = false := by
  have hrun : (Source.empty.readTexts [] [jumpingText]).fault = none ∧
      ∃ db ∈ (Database.ofSource twoYears
        (Source.empty.readTexts [] [jumpingText]).source).result.toOption,
        ∃ eras ∈ db.zones.get? "Z", eras.map Era.format = ["C", "D", "E"] := by
    decide +kernel
  obtain ⟨hread, hmade⟩ := hrun
  obtain ⟨db, hdb, eras, hzone, hformats⟩ := exists_eq_ok_of_toOption hmade
  exact ⟨db, eras, ⟨hread, hdb⟩, hzone, hformats,
    MadeFrom.eras_end_in_order ⟨hread, hdb⟩ hzone⟩

end ZoneTables
