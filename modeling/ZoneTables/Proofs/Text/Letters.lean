import Mathlib.Data.List.Forall2

/-!
# Letters and short names

The case of ASCII letters, told by their numbers, and names that are shortened to
their first letters.
-/

namespace ZoneTables.Text

/-! ## Letters -/

theorem toNat_toLower (c : Char) :
    c.toLower.toNat =
      if 65 ≤ c.toNat ∧ c.toNat ≤ 90 then c.toNat + 32 else c.toNat := by
  have hupper : (c.val ≥ 'A'.val ∧ c.val ≤ 'Z'.val) ↔
      65 ≤ c.toNat ∧ c.toNat ≤ 90 := by
    simp only [ge_iff_le, UInt32.le_iff_toNat_le]
    rfl
  unfold Char.toLower
  by_cases h : 65 ≤ c.toNat ∧ c.toNat ≤ 90
  · rw [dif_pos (hupper.2 h), if_pos h]
    have hsub : ('a'.val - 'A'.val).toNat = 32 := rfl
    have hc : c.val.toNat = c.toNat := rfl
    show (c.val + ('a'.val - 'A'.val)).toNat = c.val.toNat + 32
    rw [UInt32.toNat_add, hsub]
    omega
  · rw [dif_neg (mt hupper.1 h), if_neg h]

theorem toLower_eq_iff {c upper : Char}
    (h : 65 ≤ upper.toNat ∧ upper.toNat ≤ 90) :
    c.toLower = upper.toLower ↔ c = upper ∨ c = upper.toLower := by
  simp only [← Char.toNat_inj, toNat_toLower, if_pos h]
  split <;> omega

theorem isAlpha_iff {c : Char} :
    c.isAlpha ↔ 65 ≤ c.toNat ∧ c.toNat ≤ 90 ∨ 97 ≤ c.toNat ∧ c.toNat ≤ 122 := by
  unfold Char.isAlpha Char.isUpper Char.isLower
  simp only [Bool.or_eq_true, Bool.and_eq_true, decide_eq_true_eq, ge_iff_le,
    UInt32.le_iff_toNat_le]
  rfl

theorem toNat_toUpper (c : Char) :
    c.toUpper.toNat =
      if 97 ≤ c.toNat ∧ c.toNat ≤ 122 then c.toNat - 32 else c.toNat := by
  have hlower : ('a'.val ≤ c.val ∧ c.val ≤ 'z'.val) ↔
      97 ≤ c.toNat ∧ c.toNat ≤ 122 := by
    simp only [UInt32.le_iff_toNat_le]
    rfl
  unfold Char.toUpper
  by_cases h : 97 ≤ c.toNat ∧ c.toNat ≤ 122
  · rw [dif_pos (hlower.2 h), if_pos h]
    have hadd : ('A'.val - 'a'.val).toNat = 4294967264 := rfl
    have hc : c.val.toNat = c.toNat := rfl
    show (c.val + ('A'.val - 'a'.val)).toNat = c.toNat - 32
    rw [UInt32.toNat_add, hadd, hc]
    omega
  · rw [dif_neg (mt hlower.1 h), if_neg h]

theorem isLower_iff {c : Char} :
    c.isLower ↔ 97 ≤ c.toNat ∧ c.toNat ≤ 122 := by
  unfold Char.isLower
  simp only [Bool.and_eq_true, decide_eq_true_eq, ge_iff_le,
    UInt32.le_iff_toNat_le]
  rfl

theorem toLower_eq_iff_of_isLower {c letter : Char} (h : letter.isLower) :
    c.toLower = letter ↔ c = letter ∨ c = letter.toUpper := by
  rw [isLower_iff] at h
  simp only [← Char.toNat_inj, toNat_toLower, toNat_toUpper, if_pos h]
  split <;> omega

/-! ## Short names -/

def SameLetters (word small : List Char) : Prop :=
  List.Forall₂ (fun c letter => c = letter ∨ c = letter.toUpper) word small

theorem sameLetters_iff {word small : List Char}
    (hsmall : ∀ letter ∈ small, letter.isLower) :
    SameLetters word small ↔ word.map Char.toLower = small := by
  unfold SameLetters
  induction word generalizing small with
  | nil => cases small <;> simp
  | cons c word ih =>
    cases small with
    | nil => simp
    | cons letter small =>
      obtain ⟨hletter, hrest⟩ := List.forall_mem_cons.1 hsmall
      rw [List.forall₂_cons, ih hrest, ← toLower_eq_iff_of_isLower hletter,
        List.map_cons, List.cons.injEq]

/-- Whether a word is the start of a name in small letters, with at least
`least` letters and each of them in either case. -/
structure Abbreviates (least : Nat) (word : List Char) (name : String) :
    Prop where
  le_length : least ≤ word.length
  isStart : ∃ start, start <+: name.toList ∧ SameLetters word start

variable {least : Nat} {word : List Char} {name other : String}

theorem abbreviates_iff (hname : ∀ letter ∈ name.toList, letter.isLower) :
    Abbreviates least word name ↔
      least ≤ word.length ∧ word.map Char.toLower <+: name.toList := by
  constructor
  · rintro ⟨hle, start, hstart, hsame⟩
    rw [sameLetters_iff fun letter h => hname letter (hstart.subset h)] at hsame
    exact ⟨hle, hsame ▸ hstart⟩
  · rintro ⟨hle, hstart⟩
    exact ⟨hle, _, hstart,
      (sameLetters_iff fun letter h => hname letter (hstart.subset h)).2 rfl⟩

theorem Abbreviates.take_eq (hname : ∀ letter ∈ name.toList, letter.isLower)
    (hother : ∀ letter ∈ other.toList, letter.isLower)
    (h : Abbreviates least word name) (h' : Abbreviates least word other) :
    name.toList.take least = other.toList.take least := by
  obtain ⟨hle, rest, hrest⟩ := (abbreviates_iff hname).1 h
  obtain ⟨_, rest', hrest'⟩ := (abbreviates_iff hother).1 h'
  have hlen : least ≤ (word.map Char.toLower).length := by
    rwa [List.length_map]
  rw [← hrest, ← hrest', List.take_append_of_le_length hlen,
    List.take_append_of_le_length hlen]

theorem Abbreviates.isAlpha (hname : ∀ letter ∈ name.toList, letter.isLower)
    (h : Abbreviates least word name) : ∀ c ∈ word, c.isAlpha := by
  obtain ⟨_, hstart⟩ := (abbreviates_iff hname).1 h
  intro c hc
  have hlower := hname _ (hstart.subset (List.mem_map_of_mem hc))
  rw [isLower_iff, toNat_toLower] at hlower
  rw [isAlpha_iff]
  split at hlower <;> omega

end ZoneTables.Text
