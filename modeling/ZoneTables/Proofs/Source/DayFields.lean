import Mathlib.Data.List.Nodup
import ZoneTables.Proofs.Calendar.DayText
import ZoneTables.Proofs.Source.TimeFields

/-!
# Which fields are days and months

Days of the week and months may be shortened, as long as what is left fits one
name only.  Which fields are days and months is said by a grammar in which a
short name is told from the full one letter by letter.
-/

namespace ZoneTables

/-! ## Days of the week and months -/

namespace Weekday

theorem isLower_of_mem_name (w : Weekday) :
    ∀ letter ∈ w.name.toList, letter.isLower := by
  have hall : w.name.toList.all Char.isLower := by cases w <;> rfl
  exact List.all_eq_true.1 hall

/-- Two letters are enough to tell days of the week apart. -/
theorem eq_of_take_name_eq {v w : Weekday}
    (h : v.name.toList.take 2 = w.name.toList.take 2) : v = w := by
  revert h
  cases v <;> cases w <;> decide

theorem read?_eq_some_iff {cs : List Char} {w : Weekday} :
    read? cs = some w ↔ Text.Abbreviates 2 cs w.name := by
  rw [Text.abbreviates_iff w.isLower_of_mem_name]
  unfold read?
  by_cases hlen : cs.length < 2
  · rw [if_pos hlen]
    exact ⟨nofun, fun h => absurd h.1 (Nat.not_le.2 hlen)⟩
  · rw [if_neg hlen]
    constructor
    · intro h
      split at h
      · rename_i v hfits
        cases h
        have hmem : w ∈ all.filter fun v =>
            (cs.map Char.toLower).isPrefixOf v.name.toList :=
          hfits ▸ List.mem_singleton_self w
        exact ⟨Nat.not_lt.1 hlen,
          List.isPrefixOf_iff_prefix.1 (List.mem_filter.1 hmem).2⟩
      · cases h
    · intro h
      -- another day would start with the same two letters
      have honly : ∀ v ∈ all,
          (cs.map Char.toLower).isPrefixOf v.name.toList = (v == w) := by
        intro v _
        rw [Bool.eq_iff_iff, List.isPrefixOf_iff_prefix, beq_iff_eq]
        refine ⟨fun hv => eq_of_take_name_eq ?_, fun hv => hv ▸ h.2⟩
        exact Text.Abbreviates.take_eq v.isLower_of_mem_name
          w.isLower_of_mem_name
          ((Text.abbreviates_iff v.isLower_of_mem_name).2 ⟨h.1, hv⟩)
          ((Text.abbreviates_iff w.isLower_of_mem_name).2 h)
      have hone : all.filter (· == w) = [w] := by cases w <;> rfl
      rw [List.filter_congr honly, hone]

end Weekday

namespace Month

def IsNamedBy (month : Nat) (word : List Char) : Prop :=
  ∃ i name, month = i + 1 ∧ names[i]? = some name ∧ Text.Abbreviates 3 word name

theorem isLower_of_mem_names {name : String} (h : name ∈ names) :
    ∀ letter ∈ name.toList, letter.isLower := by
  have hall : names.all fun name => name.toList.all Char.isLower := rfl
  exact List.all_eq_true.1 (List.all_eq_true.1 hall name h)

theorem eq_of_take_names_eq {i j : Nat} {name other : String}
    (h : names[i]? = some name) (h' : names[j]? = some other)
    (htake : name.toList.take 3 = other.toList.take 3) : i = j := by
  have hnodup : (names.map fun name => name.toList.take 3).Nodup := by decide
  have hi : i < (names.map fun name => name.toList.take 3).length := by
    rw [List.length_map]
    exact (List.getElem?_eq_some_iff.1 h).1
  refine (List.getElem?_inj hi hnodup).1 ?_
  rw [List.getElem?_map, List.getElem?_map, h, h', Option.map_some,
    Option.map_some, htake]

theorem read?_eq_some_iff {cs : List Char} {month : Nat} :
    read? cs = some month ↔ IsNamedBy month cs := by
  unfold read?
  constructor
  · intro h
    split at h
    · cases h
    · rename_i hlen
      obtain ⟨i, hi, rfl⟩ := Option.map_eq_some_iff.1 h
      obtain ⟨hbound, hfits, _⟩ := List.findIdx?_eq_some_iff_getElem.1 hi
      refine ⟨i, _, rfl, List.getElem?_eq_getElem hbound, ?_⟩
      rw [Text.abbreviates_iff (isLower_of_mem_names (List.getElem_mem hbound))]
      exact ⟨Nat.not_lt.1 hlen, List.isPrefixOf_iff_prefix.1 hfits⟩
  · rintro ⟨i, name, rfl, hi, hshort⟩
    obtain ⟨hbound, rfl⟩ := List.getElem?_eq_some_iff.1 hi
    have hlower := isLower_of_mem_names (List.getElem_mem hbound)
    rw [if_neg (Nat.not_lt.2 hshort.le_length)]
    refine Option.map_eq_some_iff.2 ⟨i, ?_, rfl⟩
    refine List.findIdx?_eq_some_iff_getElem.2 ⟨hbound,
      List.isPrefixOf_iff_prefix.2 ((Text.abbreviates_iff hlower).1 hshort).2,
      fun j hj hfits => ?_⟩
    -- an earlier name would start with the same three letters
    have hbound' : j < names.length := Nat.lt_trans hj hbound
    have hlower' := isLower_of_mem_names (List.getElem_mem hbound')
    have hshort' : Text.Abbreviates 3 cs names[j] :=
      (Text.abbreviates_iff hlower').2
        ⟨hshort.le_length, List.isPrefixOf_iff_prefix.1 hfits⟩
    exact absurd (eq_of_take_names_eq (List.getElem?_eq_getElem hbound') hi
      (hshort'.take_eq hlower' hlower hshort)) (Nat.ne_of_lt hj)

theorem IsNamedBy.unique {word : List Char} {month other : Nat}
    (h : IsNamedBy month word) (h' : IsNamedBy other word) : month = other :=
  Option.some.inj
    ((read?_eq_some_iff.2 h).symm.trans (read?_eq_some_iff.2 h'))

end Month

/-! ## Days -/

namespace DaySpec

structure WritesDay (cs : List Char) (day : Nat) : Prop where
  digits : ∀ c ∈ cs, c.isDigit
  ne_nil : cs ≠ []
  length_le : cs.length ≤ 2
  value : Text.digitsValue cs = day
  pos : 1 ≤ day
  le : day ≤ 31

inductive Means : List Char → DaySpec → Prop where
  | exact {cs : List Char} {day : Nat} : WritesDay cs day → Means cs (exact day)
  | last {word : List Char} {w : Weekday} : Text.Abbreviates 2 word w.name →
    Means ("last".toList ++ word) (last w)
  | onOrAfter {word cs : List Char} {w : Weekday} {day : Nat} :
    Text.Abbreviates 2 word w.name → WritesDay cs day →
    Means (word ++ ">=".toList ++ cs) (onOrAfter w day)
  | onOrBefore {word cs : List Char} {w : Weekday} {day : Nat} :
    Text.Abbreviates 2 word w.name → WritesDay cs day →
    Means (word ++ "<=".toList ++ cs) (onOrBefore w day)

theorem readDay?_eq_some_iff {cs : List Char} {day : Nat} :
    readDay? cs = some day ↔ WritesDay cs day := by
  unfold readDay? Text.readNat?
  constructor
  · intro h
    split at h
    · rename_i hlen
      obtain ⟨hread, hrange⟩ := Option.filter_eq_some_iff.1 h
      split at hread
      · rename_i hdigits
        simp only [Bool.and_eq_true, Bool.not_eq_true', List.isEmpty_eq_false_iff,
          List.all_eq_true] at hdigits
        have := of_decide_eq_true hrange
        exact ⟨hdigits.2, hdigits.1, hlen, Option.some.inj hread, this.1, this.2⟩
      · cases hread
    · cases h
  · rintro ⟨hdigits, hne, hlen, hvalue, hpos, hle⟩
    have hall : (!cs.isEmpty && cs.all Char.isDigit) = true := by
      simpa [hne] using hdigits
    rw [if_pos hlen, if_pos hall, hvalue, Option.filter_some,
      if_pos (decide_eq_true ⟨hpos, hle⟩)]

theorem readDay?_eq_none {cs : List Char} {c : Char} (hc : c ∈ cs)
    (halpha : c.isAlpha) : readDay? cs = none := by
  rw [Option.eq_none_iff_forall_ne_some]
  intro day h
  have hdigit := Char.isDigit_iff_toNat.1 ((readDay?_eq_some_iff.1 h).digits c hc)
  have h9 : '9'.toNat = 57 := rfl
  rw [Text.isAlpha_iff] at halpha
  omega

theorem means_of_readAroundDay? {cs : List Char} {spec : DaySpec}
    (h : readAroundDay? cs = some spec) : Means cs spec := by
  have hcs := List.takeWhile_append_dropWhile (p := Char.isAlpha) (l := cs)
  unfold readAroundDay? at h
  generalize cs.takeWhile Char.isAlpha = word at h hcs
  generalize cs.dropWhile Char.isAlpha = rest at h hcs
  subst hcs
  split at h
  · rename_i hword
    obtain ⟨day, hday, rfl⟩ := Option.map_eq_some_iff.1 h
    have hmeans := Means.onOrAfter (Weekday.read?_eq_some_iff.1 hword)
      (readDay?_eq_some_iff.1 hday)
    rwa [List.append_assoc] at hmeans
  · rename_i hword
    obtain ⟨day, hday, rfl⟩ := Option.map_eq_some_iff.1 h
    have hmeans := Means.onOrBefore (Weekday.read?_eq_some_iff.1 hword)
      (readDay?_eq_some_iff.1 hday)
    rwa [List.append_assoc] at hmeans
  · cases h

theorem span_weekday {word : List Char} {w : Weekday}
    (hword : Text.Abbreviates 2 word w.name) {sign : Char}
    (hsign : sign.isAlpha = false) (rest : List Char) :
    (word ++ sign :: rest).takeWhile Char.isAlpha = word ∧
      (word ++ sign :: rest).dropWhile Char.isAlpha = sign :: rest := by
  refine Text.span_append _ (hword.isAlpha w.isLower_of_mem_name) fun c hc => ?_
  cases hc
  exact hsign

/-- No day of the week starts as the word for the last one does, so that what
has a day of the week in front is read around a sign. -/
theorem read?_append {word rest : List Char} {w : Weekday}
    (hword : Text.Abbreviates 2 word w.name) :
    read? (word ++ rest) = readAroundDay? (word ++ rest) := by
  obtain ⟨hle, hstart⟩ := (Text.abbreviates_iff w.isLower_of_mem_name).1 hword
  obtain ⟨c, word, rfl⟩ : ∃ c cs, word = c :: cs :=
    List.exists_cons_of_length_pos (Nat.lt_of_lt_of_le (by decide) hle)
  have halpha := hword.isAlpha w.isLower_of_mem_name c List.mem_cons_self
  have hl : c ≠ 'l' := by
    rintro rfl
    revert hstart
    cases w <;> simp [Weekday.name]
  unfold read?
  rw [readDay?_eq_none (List.mem_append_left _ List.mem_cons_self) halpha]
  dsimp only [List.cons_append]
  split
  · rename_i heq
    exact absurd (List.cons.inj heq).1 hl
  · rfl

theorem read?_eq_some_iff {cs : List Char} {spec : DaySpec} :
    read? cs = some spec ↔ Means cs spec := by
  constructor
  · intro h
    unfold read? at h
    split at h
    · rename_i hday
      cases h
      exact .exact (readDay?_eq_some_iff.1 hday)
    · split at h
      · split at h
        · rename_i hword
          cases h
          exact .last (Weekday.read?_eq_some_iff.1 hword)
        · exact means_of_readAroundDay? h
      · exact means_of_readAroundDay? h
  · intro h
    cases h with
    | exact hday =>
      unfold read?
      rw [readDay?_eq_some_iff.2 hday]
    | @last word w hword =>
      have hl : readDay? ('l' :: 'a' :: 's' :: 't' :: word) = none :=
        readDay?_eq_none List.mem_cons_self rfl
      show read? ('l' :: 'a' :: 's' :: 't' :: word) = some (last w)
      unfold read?
      simp only [hl, Weekday.read?_eq_some_iff.2 hword]
    | @onOrAfter word cs w day hword hday =>
      rw [List.append_assoc, read?_append hword]
      have hsign : Char.isAlpha '>' = false := rfl
      obtain ⟨htake, hdrop⟩ := span_weekday hword hsign ('=' :: cs)
      show readAroundDay? (word ++ '>' :: '=' :: cs) = _
      unfold readAroundDay?
      rw [htake, hdrop, Weekday.read?_eq_some_iff.2 hword]
      show (readDay? cs).map (onOrAfter w) = _
      rw [readDay?_eq_some_iff.2 hday, Option.map_some]
    | @onOrBefore word cs w day hword hday =>
      rw [List.append_assoc, read?_append hword]
      have hsign : Char.isAlpha '<' = false := rfl
      obtain ⟨htake, hdrop⟩ := span_weekday hword hsign ('=' :: cs)
      show readAroundDay? (word ++ '<' :: '=' :: cs) = _
      unfold readAroundDay?
      rw [htake, hdrop, Weekday.read?_eq_some_iff.2 hword]
      show (readDay? cs).map (onOrBefore w) = _
      rw [readDay?_eq_some_iff.2 hday, Option.map_some]

end DaySpec

/-! ## Fields -/

namespace Field

theorem daySpec_eq_ok_iff {token : String} {spec : DaySpec} :
    daySpec token = .ok spec ↔ DaySpec.Means token.toList spec := by
  rw [← DaySpec.read?_eq_some_iff]
  unfold daySpec
  cases DaySpec.read? token.toList with
  | none => simp
  | some other => simp

theorem month_eq_ok_iff {token : String} {m : Nat} :
    month token = .ok m ↔ Month.IsNamedBy m token.toList := by
  rw [← Month.read?_eq_some_iff]
  unfold month
  cases Month.read? token.toList with
  | none => simp
  | some other => simp

/-- Choices of days are the fields that the grammar gives a meaning, and are read
as what they mean.  A choice that was read reads back from its written form, and
is what its two codes stand for.  Months are the short names of months, each of
which fits one month only. -/
theorem day_grammar :
    (∀ token spec,
        daySpec token = .ok spec ↔ DaySpec.Means token.toList spec) ∧
      (∀ token spec, daySpec token = .ok spec →
        daySpec spec.text = .ok spec ∧
          DaySpec.ofCodes? spec.codes.1 spec.codes.2 = some spec) ∧
      (∀ token m, month token = .ok m ↔ Month.IsNamedBy m token.toList) ∧
      ∀ word m n, Month.IsNamedBy m word → Month.IsNamedBy n word → m = n := by
  refine ⟨fun _ _ => daySpec_eq_ok_iff, fun token spec h => ?_,
    fun _ _ => month_eq_ok_iff, fun _ _ _ => Month.IsNamedBy.unique⟩
  have hproper : spec.IsProper := daySpec_isProper h
  refine ⟨?_, DaySpec.ofCodes?_codes hproper⟩
  unfold daySpec
  rw [DaySpec.read?_text hproper]

/-- Two letters tell Sunday from Saturday, and the zero in front of the number is
not written again. -/
theorem day_grammar_shortSunday :
    daySpec "sU<=09" = .ok (.onOrBefore .sunday 9) ∧
      DaySpec.Means "sU<=09".toList (.onOrBefore .sunday 9) ∧
      (daySpec "Sun<=9" = .ok (.onOrBefore .sunday 9) ∧
        DaySpec.ofCodes? 7 (-9) = some (.onOrBefore .sunday 9)) ∧
      month "SEPt" = .ok 9 ∧ Month.IsNamedBy 9 "SEPt".toList := by
  obtain ⟨hspec, hback, hmonth, _⟩ := day_grammar
  have hday : daySpec "sU<=09" = .ok (.onOrBefore .sunday 9) := rfl
  have hseptember : month "SEPt" = .ok 9 := rfl
  exact ⟨hday, (hspec _ _).1 hday, hback _ _ hday, hseptember,
    (hmonth _ _).1 hseptember⟩

end Field

end ZoneTables
