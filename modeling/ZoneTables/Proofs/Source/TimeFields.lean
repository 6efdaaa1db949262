import ZoneTables.Proofs.Source.Fields
import ZoneTables.Proofs.Text.Letters

/-!
# Which fields are times

Fields are read by cutting them into parts.  Which fields are amounts and times
of day is said by the grammar of amounts instead, and a time of day by the
letters that stand for the clocks it can be read on.
-/

namespace ZoneTables

/-! ## Clocks -/

namespace TimeFrame

def letters : TimeFrame → List Char
  | wall => ['W', 'w']
  | standard => ['S', 's']
  | utc => ['U', 'u', 'G', 'g', 'Z', 'z']

theorem ofLetter?_eq_some_iff {c : Char} {frame : TimeFrame} :
    ofLetter? c = some frame ↔ c ∈ frame.letters := by
  constructor
  · intro h
    have hcase : ∀ upper : Char, 65 ≤ upper.toNat ∧ upper.toNat ≤ 90 →
        c.toLower = upper.toLower → c = upper ∨ c = upper.toLower :=
      fun _ hupper => (Text.toLower_eq_iff hupper).1
    unfold ofLetter? at h
    split at h
    · rename_i heq
      cases h
      simpa [letters] using hcase 'W' (by decide) heq
    · rename_i heq
      cases h
      simpa [letters] using hcase 'S' (by decide) heq
    · rename_i heq
      cases h
      rcases hcase 'U' (by decide) heq with rfl | rfl <;> decide
    · rename_i heq
      cases h
      rcases hcase 'G' (by decide) heq with rfl | rfl <;> decide
    · rename_i heq
      cases h
      rcases hcase 'Z' (by decide) heq with rfl | rfl <;> decide
    · cases h
  · have hall : frame.letters.all fun c => ofLetter? c = some frame := by
      cases frame <;> rfl
    simpa using List.all_eq_true.1 hall c

theorem isAlpha_of_mem_letters {c : Char} {frame : TimeFrame}
    (h : c ∈ frame.letters) : c.isAlpha := by
  have hall : frame.letters.all Char.isAlpha := by
    cases frame <;> rfl
  exact List.all_eq_true.1 hall c h

end TimeFrame

/-! ## Characters of amounts -/

namespace Clock

theorem Writes.isDigit_or_colon {cs : List Char} {n : Nat} (h : Writes cs n) :
    ∀ c ∈ cs, c.isDigit ∨ c = ':' := by
  have hhours : ∀ {h}, IsHours h → ∀ c ∈ h, c.isDigit ∨ c = ':' :=
    fun hh c hc => .inl (hh.digits c hc)
  have hsixtieth : ∀ {cs n}, WritesSixtieth cs n →
      ∀ c ∈ cs, c.isDigit ∨ c = ':' := by
    intro cs n h
    obtain ⟨tens, units, rfl, htens, hunits, _⟩ := h.chars
    simp [htens, hunits]
  cases h with
  | hours hh => exact hhours hh
  | minutes hh hm =>
    exact List.forall_mem_append.2 ⟨hhours hh, hsixtieth hm⟩
  | seconds hh hm hs =>
    exact List.forall_mem_append.2 ⟨hhours hh,
      List.forall_mem_append.2 ⟨hsixtieth hm, hsixtieth hs⟩⟩

theorem Means.isAlpha_eq_false {cs : List Char} {n : Int} (h : Means cs n) :
    ∀ c ∈ cs, c.isAlpha = false := by
  have hwrites : ∀ {cs m}, Writes cs m → ∀ c ∈ cs, c.isAlpha = false := by
    intro cs m h c hc
    rw [Bool.eq_false_iff, ne_eq, Text.isAlpha_iff]
    rcases h.isDigit_or_colon c hc with hdigit | rfl
    · have := Char.isDigit_iff_toNat.1 hdigit
      have h9 : '9'.toNat = 57 := rfl
      omega
    · have hcolon : ':'.toNat = 58 := rfl
      omega
  have hdash : '-'.isAlpha = false := rfl
  cases h with
  | dash => exact List.forall_mem_singleton.2 hdash
  | positive h => exact hwrites h
  | negative h => exact List.forall_mem_cons.2 ⟨hdash, hwrites h⟩

end Clock

/-! ## Fields -/

namespace Field

theorem amount_eq_ok_iff {token : String} {n : Int} :
    amount token = .ok n ↔ Clock.Means token.toList n := by
  rw [← Clock.read?_eq_some_iff]
  unfold amount
  cases Clock.read? token.toList with
  | none => simp
  | some m => simp

theorem amount_text (n : Int) :
    amount (Clock.text n) =
      if n.natAbs ≤ Clock.greatest then .ok n
      else .error (.invalidTime (Clock.text n)) := by
  unfold amount
  split_ifs with h
  · rw [Clock.read?_text h]
  · rw [Clock.read?_text_eq_none (by omega)]

/-- What can be told from an amount by its characters is all amounts but the
dash. -/
theorem isAmountText_of_means {cs : List Char} {n : Int} (h : Clock.Means cs n)
    (hdash : cs ≠ ['-']) : isAmountText cs := by
  have hwrites : ∀ {cs m}, Clock.Writes cs m →
      (!cs.isEmpty && cs.all fun c => c.isDigit || c == ':') = true := by
    intro cs m h
    obtain ⟨c, rest, rfl, _⟩ := h.exists_digit
    simpa using h.isDigit_or_colon
  unfold isAmountText
  cases h with
  | dash => exact absurd rfl hdash
  | negative h => exact hwrites h
  | positive h =>
    obtain ⟨c, rest, rfl, hc⟩ := h.exists_digit
    split
    · rename_i heq
      cases heq
      exact absurd hc (by decide)
    · exact hwrites h

theorem append_splitTime (cs : List Char) :
    (splitTime cs).1 ++ (splitTime cs).2.toList = cs := by
  unfold splitTime
  split
  · rename_i c hlast
    split
    · exact List.dropLast_append_getLast? c hlast
    · exact List.append_nil cs
  · exact List.append_nil cs

theorem splitTime_append {body : List Char} {letter : Option Char}
    (hbody : ∀ c ∈ body, c.isAlpha = false) (hletter : ∀ c ∈ letter, c.isAlpha) :
    splitTime (body ++ letter.toList) = (body, letter) := by
  unfold splitTime
  cases letter with
  | some c => simp [hletter c rfl]
  | none =>
    rw [Option.toList_none, List.append_nil]
    split
    · rename_i c hlast
      simp [hbody c (List.mem_of_getLast? hlast)]
    · rfl

end Field

def TimeFrame.IsNamedBy (frame : TimeFrame) : Option Char → Prop
  | none => frame = .wall
  | some c => c ∈ frame.letters

theorem Field.time_eq_ok_iff {token : String} {seconds : Int}
    {frame : TimeFrame} :
    time token = .ok (seconds, frame) ↔
      ∃ body letter, token.toList = body ++ letter.toList ∧ body ≠ ['-'] ∧
        Clock.Means body seconds ∧ frame.IsNamedBy letter := by
  constructor
  · intro h
    have hsplit := append_splitTime token.toList
    unfold time at h
    generalize splitTime token.toList = parts at h hsplit
    obtain ⟨body, letter⟩ := parts
    dsimp only at h hsplit
    split at h
    · rename_i hchars
      obtain ⟨n, hn, h⟩ := except_bind_eq_ok.1 h
      rw [amount_eq_ok_iff, String.toList_ofList] at hn
      have hdash : body ≠ ['-'] := by
        rintro rfl
        exact absurd hchars (by decide)
      cases letter with
      | none =>
        cases h
        exact ⟨body, none, hsplit.symm, hdash, hn, rfl⟩
      | some c =>
        dsimp only at h
        split at h
        · rename_i hframe
          cases h
          exact ⟨body, some c, hsplit.symm, hdash, hn,
            TimeFrame.ofLetter?_eq_some_iff.1 hframe⟩
        · cases h
    · cases h
  · rintro ⟨body, letter, htoken, hdash, hn, hframe⟩
    have hletter : ∀ c ∈ letter, c.isAlpha := by
      rintro c rfl
      exact TimeFrame.isAlpha_of_mem_letters hframe
    have hamount : amount (String.ofList body) = .ok seconds := by
      rw [amount_eq_ok_iff, String.toList_ofList]
      exact hn
    unfold time
    rw [htoken, splitTime_append hn.isAlpha_eq_false hletter]
    dsimp only
    rw [if_pos (isAmountText_of_means hn hdash)]
    refine except_bind_eq_ok.2 ⟨seconds, hamount, ?_⟩
    cases letter with
    | none =>
      cases hframe
      rfl
    | some c =>
      dsimp only
      rw [TimeFrame.ofLetter?_eq_some_iff.2 hframe]

/-- Amounts are the fields that the grammar gives a meaning, and are read as what
they mean.  Those that are written with at most three digits of hours read back
from their written form, and so does everything that is read.  A time of day is
an amount other than the dash, and may have the letter of its clock behind it. -/
theorem Field.time_grammar :
    (∀ token n, amount token = .ok n ↔ Clock.Means token.toList n) ∧
      (∀ n, amount (Clock.text n) =
        if n.natAbs ≤ Clock.greatest then .ok n
        else .error (.invalidTime (Clock.text n))) ∧
      (∀ token n, amount token = .ok n → amount (Clock.text n) = .ok n) ∧
      ∀ token seconds frame, time token = .ok (seconds, frame) ↔
        ∃ body letter, token.toList = body ++ letter.toList ∧ body ≠ ['-'] ∧
          Clock.Means body seconds ∧ frame.IsNamedBy letter := by
  refine ⟨fun _ _ => amount_eq_ok_iff, amount_text, fun token n h => ?_,
    fun _ _ _ => time_eq_ok_iff⟩
  rw [amount_text, if_pos (amount_le h)]

/-- Half an hour taken away has a sign, though no hours to carry it. -/
theorem Field.time_grammar_halfHour :
    amount "-0:30:00" = .ok (-1800) ∧
      amount (Clock.text (-1800)) = .ok (-1800) ∧
      time "-0:30:00G" = .ok (-1800, .utc) ∧
      ∃ body letter, "-0:30:00G".toList = body ++ letter.toList ∧
        body ≠ ['-'] ∧ Clock.Means body (-1800) ∧
        TimeFrame.IsNamedBy .utc letter := by
  obtain ⟨_, _, hback, htime⟩ := time_grammar
  have hread : amount "-0:30:00" = .ok (-1800) := rfl
  have hframe : time "-0:30:00G" = .ok (-1800, .utc) := rfl
  exact ⟨hread, hback _ _ hread, hframe, (htime _ _ _).1 hframe⟩

end ZoneTables
