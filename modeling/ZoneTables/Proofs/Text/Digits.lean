import ZoneTables.Text.Decimal
import Mathlib.Algebra.Group.Nat.Defs

/-!
# Digits and the numbers they write

A row of decimal digits has the value that its length allows, and the row that
a number is written with has the value of the number.
-/

namespace ZoneTables.Text

theorem digitValue_lt {c : Char} (h : c.isDigit) : digitValue c < 10 := by
  have hc := Char.isDigit_iff_toNat.1 h
  have h0 : '0'.toNat = 48 := by decide
  have h9 : '9'.toNat = 57 := by decide
  unfold digitValue
  omega

theorem digitsValue_eq (cs : List Char) :
    digitsValue cs = Nat.ofDigitChars 10 cs 0 := by
  rw [Nat.ofDigitChars_eq_foldl]
  unfold digitsValue digitValue
  congr 1

private theorem foldl_digits_lt (cs : List Char) (h : cs.all Char.isDigit)
    (n : Nat) :
    cs.foldl (fun n c => 10 * n + digitValue c) n < (n + 1) * 10 ^ cs.length := by
  induction cs generalizing n with
  | nil => simp
  | cons c cs ih =>
    rw [List.all_cons, Bool.and_eq_true] at h
    have hc := digitValue_lt h.1
    have hstep : 10 * n + digitValue c + 1 ≤ (n + 1) * 10 := by omega
    calc
      _ < (10 * n + digitValue c + 1) * 10 ^ cs.length := ih h.2 _
      _ ≤ (n + 1) * 10 * 10 ^ cs.length := Nat.mul_le_mul_right _ hstep
      _ = (n + 1) * 10 ^ (c :: cs).length := by
        rw [List.length_cons, Nat.pow_succ, Nat.mul_assoc,
          Nat.mul_comm 10 (10 ^ cs.length)]

theorem digitsValue_lt {cs : List Char} (h : cs.all Char.isDigit) :
    digitsValue cs < 10 ^ cs.length := by
  have hlt := foldl_digits_lt cs h 0
  rw [Nat.zero_add, Nat.one_mul] at hlt
  exact hlt

theorem readUnsigned?_lt {cs : List Char} {n : Nat}
    (h : readUnsigned? cs = some n) : n < 10 ^ cs.length := by
  have hnat : ∀ {cs : List Char}, readNat? cs = some n → n < 10 ^ cs.length := by
    intro cs hread
    unfold readNat? at hread
    split at hread
    · rename_i hdigits
      cases hread
      rw [Bool.and_eq_true] at hdigits
      exact digitsValue_lt hdigits.2
    · cases hread
  unfold readUnsigned? at h
  split at h
  · rename_i rest
    have hlt := hnat h
    have hpow : 10 ^ rest.length ≤ 10 ^ (rest.length + 1) :=
      Nat.pow_le_pow_right (by decide) (Nat.le_succ _)
    exact Nat.lt_of_lt_of_le hlt hpow
  · exact hnat h

theorem digitsValue_toDigits (n : Nat) :
    digitsValue (Nat.toDigits 10 n) = n := by
  rw [digitsValue_eq, Nat.ofDigitChars_ten_toDigits]

theorem all_isDigit_toDigits (n : Nat) :
    (Nat.toDigits 10 n).all Char.isDigit := by
  rw [List.all_eq_true]
  intro c hc
  exact Nat.isDigit_of_mem_toDigits (by decide) (by decide) hc

theorem toList_toString (n : Nat) : (toString n).toList = Nat.toDigits 10 n := by
  rw [Nat.toString_eq_repr, Nat.toList_repr]

theorem readNat?_toString (n : Nat) :
    readNat? (toString n).toList = some n := by
  unfold readNat?
  rw [toList_toString, all_isDigit_toDigits, digitsValue_toDigits]
  have hne : (Nat.toDigits 10 n).isEmpty = false := by
    rw [List.isEmpty_eq_false_iff]
    exact Nat.toDigits_ne_nil
  rw [hne]
  rfl

theorem toList_twoDigits {n : Nat} (h : n < 100) :
    (twoDigits n).toList = [Nat.digitChar (n / 10), Nat.digitChar (n % 10)] := by
  unfold twoDigits
  split
  · rename_i hn
    have h0 : n / 10 = 0 := by omega
    have hm : n % 10 = n := by omega
    rw [String.toList_append, toList_toString, Nat.toDigits_of_lt_base hn, h0, hm]
    rfl
  · rename_i hn
    rw [toList_toString, Nat.toDigits_of_base_le (by decide) (by omega),
      Nat.toDigits_of_lt_base (by omega)]
    rfl

theorem digitValue_digitChar {n : Nat} (h : n < 10) :
    digitValue (Nat.digitChar n) = n :=
  Nat.toNat_digitChar_sub_48_of_lt_ten h

theorem isDigit_digitChar {n : Nat} (h : n < 10) : (Nat.digitChar n).isDigit := by
  rw [Nat.isDigit_digitChar]
  exact decide_eq_true h

theorem span_append {p : Char → Bool} {front : List Char} (rest : List Char)
    (hfront : ∀ c ∈ front, p c)
    (hrest : ∀ c, rest.head? = some c → p c = false) :
    (front ++ rest).takeWhile p = front ∧ (front ++ rest).dropWhile p = rest := by
  rw [List.takeWhile_append_of_pos hfront, List.dropWhile_append_of_pos hfront]
  cases rest with
  | nil => simp
  | cons c rest => simp [hrest c rfl]

end ZoneTables.Text
