import ZoneTables.Calendar.DaySpec
import ZoneTables.Proofs.Text.Digits

/-!
# Day specifications as text and as codes

A day specification can be told from its written form, and from its two codes
if the day number in it is one of a month.
-/

namespace ZoneTables

namespace DaySpec

def IsProper : DaySpec → Prop
  | exact day => 1 ≤ day ∧ day ≤ 31
  | last _ => True
  | onOrAfter _ day => 1 ≤ day ∧ day ≤ 31
  | onOrBefore _ day => 1 ≤ day ∧ day ≤ 31

/-! ## Reading gives proper specifications -/

theorem readDay?_range {cs : List Char} {day : Nat}
    (h : readDay? cs = some day) : 1 ≤ day ∧ day ≤ 31 := by
  unfold readDay? at h
  split at h
  · exact of_decide_eq_true (Option.filter_eq_some_iff.1 h).2
  · cases h

theorem isProper_of_readAroundDay? {cs : List Char} {spec : DaySpec}
    (h : readAroundDay? cs = some spec) : spec.IsProper := by
  unfold readAroundDay? at h
  split at h
  · obtain ⟨day, hday, rfl⟩ := Option.map_eq_some_iff.1 h
    exact readDay?_range hday
  · obtain ⟨day, hday, rfl⟩ := Option.map_eq_some_iff.1 h
    exact readDay?_range hday
  · cases h

theorem isProper_of_read? {cs : List Char} {spec : DaySpec}
    (h : read? cs = some spec) : spec.IsProper := by
  unfold read? at h
  split at h
  · rename_i day hday
    cases h
    exact readDay?_range hday
  · split at h
    · split at h
      · cases h
        trivial
      · exact isProper_of_readAroundDay? h
    · exact isProper_of_readAroundDay? h

/-! ## The written form -/

theorem readDay?_toString {day : Nat} (h₁ : 1 ≤ day) (h₂ : day ≤ 31) :
    readDay? (toString day).toList = some day := by
  have hlen : (toString day).toList.length ≤ 2 := by
    rw [Text.toList_toString, Nat.length_toDigits_le_iff (by decide) (by decide)]
    omega
  unfold readDay?
  rw [if_pos hlen, Text.readNat?_toString, Option.filter_some,
    if_pos (decide_eq_true ⟨h₁, h₂⟩)]

private theorem readDay?_weekday (w : Weekday) (rest : List Char) :
    readDay? (w.text.toList ++ rest) = none := by
  unfold readDay?
  rw [if_neg]
  have hlen : w.text.toList.length = 3 := by cases w <;> rfl
  rw [List.length_append, hlen]
  omega

private theorem readAroundDay?_after (w : Weekday) (cs : List Char) :
    readAroundDay? (w.text.toList ++ '>' :: '=' :: cs) =
      (readDay? cs).map (onOrAfter w) := by
  cases w <;> rfl

private theorem readAroundDay?_before (w : Weekday) (cs : List Char) :
    readAroundDay? (w.text.toList ++ '<' :: '=' :: cs) =
      (readDay? cs).map (onOrBefore w) := by
  cases w <;> rfl

private theorem read?_weekday (w : Weekday) (rest : List Char) :
    read? (w.text.toList ++ rest) = readAroundDay? (w.text.toList ++ rest) := by
  unfold read?
  rw [readDay?_weekday]
  cases w <;> rfl

theorem read?_text {spec : DaySpec} (h : spec.IsProper) :
    read? spec.text.toList = some spec := by
  cases spec with
  | exact day =>
    unfold read? text
    rw [readDay?_toString h.1 h.2]
  | last w => cases w <;> rfl
  | onOrAfter w day =>
    have htext : (onOrAfter w day).text.toList =
        w.text.toList ++ '>' :: '=' :: (toString day).toList := by
      have hsign : ">=".toList = ['>', '='] := rfl
      simp only [text, String.toList_append, hsign, List.append_assoc,
        List.cons_append, List.nil_append]
    rw [htext, read?_weekday, readAroundDay?_after,
      readDay?_toString h.1 h.2, Option.map_some]
  | onOrBefore w day =>
    have htext : (onOrBefore w day).text.toList =
        w.text.toList ++ '<' :: '=' :: (toString day).toList := by
      have hsign : "<=".toList = ['<', '='] := rfl
      simp only [text, String.toList_append, hsign, List.append_assoc,
        List.cons_append, List.nil_append]
    rw [htext, read?_weekday, readAroundDay?_before,
      readDay?_toString h.1 h.2, Option.map_some]

/-! ## The codes -/

private theorem isoNumber_range (w : Weekday) :
    w.isoNumber ≠ 0 ∧ ¬ 7 < w.isoNumber := by
  have hw := w.index_lt
  unfold Weekday.isoNumber
  omega

private theorem ofIndex_isoNumber (w : Weekday) :
    Weekday.ofIndex (w.isoNumber - 1) = w := by
  rw [Weekday.isoNumber, Nat.add_sub_cancel, Weekday.ofIndex_index]

theorem ofCodes?_codes {spec : DaySpec} (h : spec.IsProper) :
    ofCodes? spec.codes.1 spec.codes.2 = some spec := by
  cases spec with
  | exact day =>
    have hday : (0 : Int) < day := by
      have := h.1
      omega
    dsimp only [codes, ofCodes?]
    rw [if_pos rfl, if_pos hday, Int.toNat_natCast]
  | last w =>
    obtain ⟨hzero, hseven⟩ := isoNumber_range w
    dsimp only [codes, ofCodes?]
    rw [if_neg hzero, if_neg hseven, if_pos rfl, ofIndex_isoNumber]
  | onOrAfter w day =>
    obtain ⟨hzero, hseven⟩ := isoNumber_range w
    have hday : (day : Int) ≠ 0 ∧ (0 : Int) < day := by
      have := h.1
      omega
    dsimp only [codes, ofCodes?]
    rw [if_neg hzero, if_neg hseven, if_neg hday.1, if_pos hday.2,
      ofIndex_isoNumber, Int.toNat_natCast]
  | onOrBefore w day =>
    obtain ⟨hzero, hseven⟩ := isoNumber_range w
    have hday : -(day : Int) ≠ 0 ∧ ¬ (0 : Int) < -day := by
      have := h.1
      omega
    dsimp only [codes, ofCodes?]
    rw [if_neg hzero, if_neg hseven, if_neg hday.1, if_neg hday.2,
      ofIndex_isoNumber, Int.neg_neg, Int.toNat_natCast]

end DaySpec

end ZoneTables
