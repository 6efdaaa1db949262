import ZoneTables.Clock
import ZoneTables.Proofs.Text.Digits

/-!
# Amounts of time and their text

Which texts are amounts of time is said by a grammar, and what is read is what
the grammar says.  It is bounded by the three digits of its hours, and every
amount within that bound, and no other, reads back from its written form.
-/

namespace ZoneTables.Clock

/-- The greatest amount that is read: 999 hours, 59 minutes, 59 seconds. -/
def greatest : Nat := 3599999

/-! ## The grammar -/

structure IsHours (cs : List Char) : Prop where
  digits : ∀ c ∈ cs, c.isDigit
  ne_nil : cs ≠ []
  length_le : cs.length ≤ 3

structure WritesSixtieth (cs : List Char) (n : Nat) : Prop where
  chars : ∃ tens units : Char, cs = [':', tens, units] ∧ tens.isDigit ∧
    units.isDigit ∧ n = 10 * Text.digitValue tens + Text.digitValue units
  lt : n < 60

inductive Writes : List Char → Nat → Prop where
  | hours {h : List Char} : IsHours h → Writes h (Text.digitsValue h * 3600)
  | minutes {h m : List Char} {minutes : Nat} : IsHours h →
    WritesSixtieth m minutes →
    Writes (h ++ m) (Text.digitsValue h * 3600 + minutes * 60)
  | seconds {h m s : List Char} {minutes seconds : Nat} : IsHours h →
    WritesSixtieth m minutes → WritesSixtieth s seconds →
    Writes (h ++ (m ++ s))
      (Text.digitsValue h * 3600 + minutes * 60 + seconds)

/-- Whether a text means an amount: a dash means none, and a dash in front of
an amount takes it away. -/
inductive Means : List Char → Int → Prop where
  | dash : Means ['-'] 0
  | positive {cs : List Char} {n : Nat} : Writes cs n → Means cs n
  | negative {cs : List Char} {n : Nat} : Writes cs n → Means ('-' :: cs) (-n)

/-! ## What is read is what is written -/

theorem readSixtieth?_eq_some_iff {cs rest : List Char} {n : Nat} :
    readSixtieth? cs = some (n, rest) ↔
      ∃ front, WritesSixtieth front n ∧ cs = front ++ rest := by
  constructor
  · intro h
    unfold readSixtieth? at h
    split at h
    · rename_i tens units rest'
      split at h
      · rename_i hc
        simp only [Bool.and_eq_true, decide_eq_true_eq] at hc
        obtain ⟨⟨htens, hunits⟩, hsix⟩ := hc
        have := Text.digitValue_lt hunits
        cases h
        exact ⟨[':', tens, units], ⟨⟨tens, units, rfl, htens, hunits, rfl⟩,
          by omega⟩, rfl⟩
      · cases h
    · cases h
  · rintro ⟨_, ⟨⟨tens, units, rfl, htens, hunits, rfl⟩, hlt⟩, rfl⟩
    have hsix : Text.digitValue tens < 6 := by omega
    simp [readSixtieth?, htens, hunits, hsix]

theorem readSixtieth?_append {cs : List Char} {n : Nat} (h : WritesSixtieth cs n)
    (rest : List Char) : readSixtieth? (cs ++ rest) = some (n, rest) :=
  readSixtieth?_eq_some_iff.2 ⟨cs, h, rfl⟩

theorem readSixtieth?_self {cs : List Char} {n : Nat} (h : WritesSixtieth cs n) :
    readSixtieth? cs = some (n, []) :=
  readSixtieth?_eq_some_iff.2 ⟨cs, h, (List.append_nil cs).symm⟩

theorem WritesSixtieth.head_append_not_isDigit {cs : List Char} {n : Nat}
    (h : WritesSixtieth cs n) (rest : List Char) :
    ∀ c, (cs ++ rest).head? = some c → c.isDigit = false := by
  obtain ⟨_, _, rfl, _⟩ := h.chars
  intro c hc
  cases hc
  decide

theorem WritesSixtieth.head_not_isDigit {cs : List Char} {n : Nat}
    (h : WritesSixtieth cs n) : ∀ c, cs.head? = some c → c.isDigit = false := by
  have hhead := h.head_append_not_isDigit []
  rwa [List.append_nil] at hhead

theorem IsHours.isReadable {h : List Char} (hh : IsHours h) :
    ¬ (h.isEmpty || decide (3 < h.length)) = true := by
  have := hh.length_le
  simp [hh.ne_nil]
  omega

theorem writes_of_readHours? {cs : List Char} {n : Nat}
    (h : readHours? cs = some n) : Writes cs n := by
  unfold readHours? at h
  dsimp only at h
  split at h
  · cases h
  · rename_i hlen
    have hhours : IsHours (cs.takeWhile Char.isDigit) := by
      simp only [Bool.or_eq_true, List.isEmpty_iff, decide_eq_true_eq, not_or]
        at hlen
      exact ⟨List.all_eq_true.1 List.all_takeWhile, hlen.1, by omega⟩
    have hcs := List.takeWhile_append_dropWhile (p := Char.isDigit) (l := cs)
    generalize cs.takeWhile Char.isDigit = h at *
    generalize cs.dropWhile Char.isDigit = rest at *
    subst hcs
    split at h
    · cases h
      rw [List.append_nil]
      exact .hours hhours
    · split at h
      · cases h
      · rename_i hminutes
        obtain ⟨m, hm, rfl⟩ := readSixtieth?_eq_some_iff.1 hminutes
        cases h
        rw [List.append_nil]
        exact .minutes hhours hm
      · rename_i hminutes
        obtain ⟨m, hm, rfl⟩ := readSixtieth?_eq_some_iff.1 hminutes
        split at h
        · rename_i hseconds
          obtain ⟨s, hs, rfl⟩ := readSixtieth?_eq_some_iff.1 hseconds
          cases h
          rw [List.append_nil]
          exact .seconds hhours hm hs
        · cases h

theorem readHours?_of_writes {cs : List Char} {n : Nat} (h : Writes cs n) :
    readHours? cs = some n := by
  unfold readHours?
  cases h with
  | hours hh =>
    obtain ⟨htake, hdrop⟩ := Text.span_append [] hh.digits nofun
    rw [List.append_nil] at htake hdrop
    dsimp only
    rw [htake, hdrop, if_neg hh.isReadable]
  | minutes hh hm =>
    have hread := readSixtieth?_self hm
    obtain ⟨htake, hdrop⟩ := Text.span_append _ hh.digits hm.head_not_isDigit
    obtain ⟨_, _, rfl, _⟩ := hm.chars
    dsimp only
    rw [htake, hdrop, if_neg hh.isReadable]
    dsimp only
    rw [hread]
  | @seconds h m s minutes seconds hh hm hs =>
    have hread := readSixtieth?_append hm s
    have hread' := readSixtieth?_self hs
    obtain ⟨htake, hdrop⟩ := Text.span_append _ hh.digits
      (hm.head_append_not_isDigit s)
    obtain ⟨_, _, rfl, _⟩ := hm.chars
    obtain ⟨_, _, rfl, _⟩ := hs.chars
    dsimp only
    rw [htake, hdrop, if_neg hh.isReadable]
    dsimp only [List.cons_append, List.nil_append] at hread ⊢
    rw [hread]
    dsimp only
    rw [hread']

theorem Writes.exists_digit {cs : List Char} {n : Nat} (h : Writes cs n) :
    ∃ c rest, cs = c :: rest ∧ c.isDigit := by
  have hhours : ∃ front rest, cs = front ++ rest ∧ IsHours front := by
    cases h with
    | hours hh => exact ⟨_, [], (List.append_nil cs).symm, hh⟩
    | minutes hh _ => exact ⟨_, _, rfl, hh⟩
    | seconds hh _ _ => exact ⟨_, _, rfl, hh⟩
  obtain ⟨front, rest, rfl, hh⟩ := hhours
  obtain ⟨c, more, rfl⟩ := List.exists_cons_of_ne_nil hh.ne_nil
  exact ⟨c, more ++ rest, rfl, hh.digits c List.mem_cons_self⟩

theorem read?_eq_some_iff {cs : List Char} {n : Int} :
    read? cs = some n ↔ Means cs n := by
  constructor
  · intro h
    unfold read? at h
    split at h
    · cases h
      exact .dash
    · obtain ⟨m, hm, rfl⟩ := Option.map_eq_some_iff.1 h
      exact .negative (writes_of_readHours? hm)
    · obtain ⟨m, hm, rfl⟩ := Option.map_eq_some_iff.1 h
      exact .positive (writes_of_readHours? hm)
  · intro h
    cases h with
    | dash => rfl
    | @negative cs m hm =>
      obtain ⟨c, rest, rfl, _⟩ := hm.exists_digit
      rw [read?, readHours?_of_writes hm, Option.map_some]
      nofun
    | @positive cs m hm =>
      obtain ⟨c, rest, rfl, hc⟩ := hm.exists_digit
      have hminus : c ≠ '-' := by
        rintro rfl
        exact absurd hc (by decide)
      rw [read?, readHours?_of_writes hm, Option.map_some]
      · intro h
        exact hminus (List.cons.inj h).1
      · intro _ h
        exact hminus (List.cons.inj h).1

/-! ## What is read is bounded -/

theorem Writes.le {cs : List Char} {n : Nat} (h : Writes cs n) :
    n ≤ greatest := by
  have hhours : ∀ {h}, IsHours h → Text.digitsValue h < 1000 := by
    intro h hh
    have hlt := Text.digitsValue_lt (List.all_eq_true.2 hh.digits)
    have hpow : 10 ^ h.length ≤ 10 ^ 3 :=
      Nat.pow_le_pow_right (by decide) hh.length_le
    omega
  unfold greatest
  cases h with
  | hours hh =>
    have := hhours hh
    omega
  | minutes hh hm =>
    have := hhours hh
    have := hm.lt
    omega
  | seconds hh hm hs =>
    have := hhours hh
    have := hm.lt
    have := hs.lt
    omega

theorem read?_natAbs_le {cs : List Char} {n : Int} (h : read? cs = some n) :
    n.natAbs ≤ greatest := by
  cases read?_eq_some_iff.1 h with
  | dash => decide
  | positive hn => exact hn.le
  | negative hn =>
    have := hn.le
    omega

/-! ## What is written reads back -/

private def digits (n : Nat) : List Char :=
  let minutes := Nat.toDigits 10 (n / 3600) ++
    ':' :: (Text.twoDigits (n / 60 % 60)).toList
  if n % 60 = 0 then minutes
  else minutes ++ ':' :: (Text.twoDigits (n % 60)).toList

private theorem toList_text (n : Int) :
    (text n).toList = if n < 0 then '-' :: digits n.natAbs else digits n.natAbs := by
  have hcolon : ":".toList = [':'] := rfl
  have hminus : "-".toList = ['-'] := rfl
  unfold text digits
  dsimp only
  by_cases hn : n < 0 <;> by_cases hs : n.natAbs % 60 = 0 <;>
    simp [hn, hs, String.toList_append, hcolon, hminus]

theorem writesSixtieth_twoDigits {n : Nat} (h : n < 60) :
    WritesSixtieth (':' :: (Text.twoDigits n).toList) n := by
  have ht : n / 10 < 10 := by omega
  have hu : n % 10 < 10 := by omega
  refine ⟨⟨Nat.digitChar (n / 10), Nat.digitChar (n % 10), ?_,
    Text.isDigit_digitChar ht, Text.isDigit_digitChar hu, ?_⟩, h⟩
  · rw [Text.toList_twoDigits (by omega)]
  · rw [Text.digitValue_digitChar ht, Text.digitValue_digitChar hu]
    omega

private theorem writes_digits {n : Nat} (h : n ≤ greatest) :
    Writes (digits n) n := by
  have hlt : n / 3600 < 10 ^ 3 := by
    unfold greatest at h
    omega
  have hhours : IsHours (Nat.toDigits 10 (n / 3600)) :=
    ⟨List.all_eq_true.1 (Text.all_isDigit_toDigits _), Nat.toDigits_ne_nil,
      (Nat.length_toDigits_le_iff (by decide) (by decide)).2 hlt⟩
  have hminutes := writesSixtieth_twoDigits (n := n / 60 % 60) (by omega)
  unfold digits
  dsimp only
  split
  · have hwrites := Writes.minutes hhours hminutes
    have heq : n / 3600 * 3600 + n / 60 % 60 * 60 = n := by omega
    rwa [Text.digitsValue_toDigits, heq] at hwrites
  · have hseconds := writesSixtieth_twoDigits (n := n % 60) (by omega)
    have hwrites := Writes.seconds hhours hminutes hseconds
    have heq : n / 3600 * 3600 + n / 60 % 60 * 60 + n % 60 = n := by omega
    rwa [Text.digitsValue_toDigits, heq, ← List.append_assoc] at hwrites

private theorem exists_digits_eq (n : Nat) :
    ∃ rest, digits n = Nat.toDigits 10 (n / 3600) ++ ':' :: rest := by
  unfold digits
  dsimp only
  split
  · exact ⟨_, rfl⟩
  · exact ⟨_, List.append_assoc _ _ _⟩

private theorem readHours?_digits_eq_none {n : Nat} (h : greatest < n) :
    readHours? (digits n) = none := by
  obtain ⟨rest, hrest⟩ := exists_digits_eq n
  have hlength : ¬ (Nat.toDigits 10 (n / 3600)).length ≤ 3 := by
    rw [Nat.length_toDigits_le_iff (by decide) (by decide)]
    unfold greatest at h
    omega
  have hcolon : ∀ c, (':' :: rest).head? = some c → c.isDigit = false := by
    intro c hc
    cases hc
    decide
  have htake := (Text.span_append _
    (List.all_eq_true.1 (Text.all_isDigit_toDigits (n / 3600))) hcolon).1
  unfold readHours?
  rw [hrest, htake]
  exact if_pos (by simp; omega)

private theorem digits_head (n : Nat) : ∃ c cs, digits n = c :: cs ∧ c.isDigit := by
  obtain ⟨c, cs, hcs⟩ :=
    List.exists_cons_of_ne_nil (Nat.toDigits_ne_nil (n := n / 3600) (b := 10))
  have hc : c.isDigit := by
    apply Nat.isDigit_of_mem_toDigits (b := 10) (n := n / 3600) (by decide) (by decide)
    rw [hcs]
    exact List.mem_cons_self
  obtain ⟨rest, hrest⟩ := exists_digits_eq n
  exact ⟨c, cs ++ ':' :: rest, by rw [hrest, hcs, List.cons_append], hc⟩

theorem toList_text_head (n : Int) : ∃ c cs, c.isDigit ∧
    ((text n).toList = c :: cs ∨ (text n).toList = '-' :: c :: cs) := by
  obtain ⟨c, cs, hcs, hc⟩ := digits_head n.natAbs
  refine ⟨c, cs, hc, ?_⟩
  rw [toList_text, hcs]
  split
  · exact .inr rfl
  · exact .inl rfl

private theorem read?_toList_text (n : Int) :
    read? (text n).toList = (readHours? (digits n.natAbs)).map
      fun m : Nat => if n < 0 then -(m : Int) else m := by
  obtain ⟨c, cs, hcs, hc⟩ := digits_head n.natAbs
  rw [toList_text]
  split
  · rename_i hn
    rw [hcs, read?]
    nofun
  · rename_i hn
    have hminus : c ≠ '-' := by
      rintro rfl
      exact absurd hc (by decide)
    rw [hcs, read?]
    · intro hc'
      exact absurd (List.cons.inj hc').1 hminus
    · intro cs' hc'
      exact absurd (List.cons.inj hc').1 hminus

theorem read?_text {n : Int} (h : n.natAbs ≤ greatest) :
    read? (text n).toList = some n := by
  rw [read?_toList_text, readHours?_of_writes (writes_digits h),
    Option.map_some]
  congr 1
  split <;> omega

theorem read?_text_eq_none {n : Int} (h : greatest < n.natAbs) :
    read? (text n).toList = none := by
  rw [read?_toList_text, readHours?_digits_eq_none h, Option.map_none]

end ZoneTables.Clock
