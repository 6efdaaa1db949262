import Mathlib.Tactic.ByContra

/-!
# Texts in the order of their bytes

Texts are compared by their characters, and tables are in the order of the
UTF-8 bytes of names.  The two orders are the same.  Of two characters the
greater one has the greater byte where their bytes first differ, and the bytes
of a character are never the first bytes of another one.
-/

namespace ZoneTables.Text

def bytes (s : String) : List UInt8 := s.toUTF8.data.toList

theorem bytes_eq_flatMap (s : String) :
    bytes s = s.toList.flatMap String.utf8EncodeChar := by
  have hbytes : ∀ l : List Char,
      bytes (String.ofList l) = l.flatMap String.utf8EncodeChar := by
    intro l
    unfold bytes
    rw [String.toUTF8_eq_toByteArray, String.toByteArray_ofList,
      List.utf8Encode, List.toList_data_toByteArray]
  rw [← hbytes, String.ofList_toList]

/-- Whether two lists differ at some place up to which both go, and the first
list has the lesser byte at the first such place. -/
inductive PartsBelow : List UInt8 → List UInt8 → Prop where
  | head {a b : UInt8} {l m : List UInt8} :
    a < b → PartsBelow (a :: l) (b :: m)
  | tail {a : UInt8} {l m : List UInt8} :
    PartsBelow l m → PartsBelow (a :: l) (a :: m)

namespace PartsBelow

variable {l m : List UInt8}

theorem append_lt (h : PartsBelow l m) (rest rest' : List UInt8) :
    l ++ rest < m ++ rest' := by
  induction h with
  | head hlt => exact List.cons_lt_cons_iff.2 (.inl hlt)
  | tail _ ih => exact List.cons_lt_cons_iff.2 (.inr ⟨rfl, ih⟩)

private theorem of_le {x y : Nat} (hx : x < 256) (hy : y < 256) (hle : x ≤ y)
    (h : x = y → PartsBelow l m) :
    PartsBelow (UInt8.ofNat x :: l) (UInt8.ofNat y :: m) := by
  rcases Nat.lt_or_eq_of_le hle with hlt | heq
  · apply head
    rw [UInt8.lt_iff_toNat_lt, UInt8.toNat_ofNat', UInt8.toNat_ofNat',
      Nat.mod_eq_of_lt hx, Nat.mod_eq_of_lt hy]
    exact hlt
  · subst heq
    exact tail (h rfl)

end PartsBelow

theorem partsBelow_of_lt {c d : Char} (h : c < d) :
    PartsBelow (String.utf8EncodeChar c) (String.utf8EncodeChar d) := by
  have hlt : c.val.toNat < d.val.toNat := UInt32.lt_iff_toNat_lt.1 h
  have hd : d.val.toNat < 1114112 := by
    rcases d.valid with hvalid | hvalid <;> omega
  unfold String.utf8EncodeChar
  generalize c.val.toNat = v at hlt
  generalize d.val.toNat = w at hlt hd
  dsimp only
  -- a longer code has the greater first byte, and codes of one length are in
  -- the order of their digits
  by_cases hone : w ≤ 127
  · rw [if_pos hone, if_pos (by omega)]
    exact .of_le (by omega) (by omega) (by omega) (by omega)
  by_cases htwo : w ≤ 2047
  · rw [if_neg hone, if_pos htwo]
    split
    · exact .of_le (by omega) (by omega) (by omega) (by omega)
    · rw [if_pos (by omega)]
      refine .of_le (by omega) (by omega) (by omega) fun _ => ?_
      exact .of_le (by omega) (by omega) (by omega) (by omega)
  by_cases hthree : w ≤ 65535
  · rw [if_neg hone, if_neg htwo, if_pos hthree]
    split
    · exact .of_le (by omega) (by omega) (by omega) (by omega)
    split
    · exact .of_le (by omega) (by omega) (by omega) (by omega)
    · rw [if_pos (by omega)]
      refine .of_le (by omega) (by omega) (by omega) fun _ => ?_
      refine .of_le (by omega) (by omega) (by omega) fun _ => ?_
      exact .of_le (by omega) (by omega) (by omega) (by omega)
  · rw [if_neg hone, if_neg htwo, if_neg hthree]
    split
    · exact .of_le (by omega) (by omega) (by omega) (by omega)
    split
    · exact .of_le (by omega) (by omega) (by omega) (by omega)
    split
    · exact .of_le (by omega) (by omega) (by omega) (by omega)
    · refine .of_le (by omega) (by omega) (by omega) fun _ => ?_
      refine .of_le (by omega) (by omega) (by omega) fun _ => ?_
      refine .of_le (by omega) (by omega) (by omega) fun _ => ?_
      exact .of_le (by omega) (by omega) (by omega) (by omega)

private theorem flatMap_lt_of_lt {l m : List Char} (h : l < m) :
    l.flatMap String.utf8EncodeChar < m.flatMap String.utf8EncodeChar := by
  induction l generalizing m with
  | nil =>
    cases m with
    | nil => exact absurd h (List.lt_irrefl _)
    | cons d m =>
      have hne : String.utf8EncodeChar d ≠ [] := String.utf8EncodeChar_ne_nil
      rw [List.flatMap_nil, List.flatMap_cons]
      cases hd : String.utf8EncodeChar d with
      | nil => exact absurd hd hne
      | cons b rest => exact List.nil_lt_cons b _
  | cons c l ih =>
    cases m with
    | nil => exact absurd h (List.not_lt_nil _)
    | cons d m =>
      rw [List.flatMap_cons, List.flatMap_cons]
      rcases List.cons_lt_cons_iff.1 h with hlt | ⟨rfl, hlt⟩
      · exact (partsBelow_of_lt hlt).append_lt _ _
      · exact List.append_left_lt (ih hlt)

theorem bytes_lt_iff {s t : String} : bytes s < bytes t ↔ s < t := by
  have hof : ∀ {s t : String}, s < t → bytes s < bytes t := by
    intro s t h
    rw [bytes_eq_flatMap, bytes_eq_flatMap]
    exact flatMap_lt_of_lt h
  refine ⟨fun hlt => ?_, hof⟩
  by_contra hnot
  by_cases heq : s = t
  · rw [heq] at hlt
    exact List.lt_irrefl _ hlt
  · have hts : t < s :=
      Std.lt_of_le_of_ne (String.not_lt.1 hnot) (Ne.symm heq)
    exact List.lt_asymm hlt (hof hts)

end ZoneTables.Text
