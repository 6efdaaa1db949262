import Mathlib.Data.List.Basic
import Mathlib.Data.List.Count
import Mathlib.Tactic.SplitIfs
import ZoneTables.Name.Fragment
import ZoneTables.Proofs.Positions
import ZoneTables.Proofs.Text.Digits

/-!
# Compressed names

A name is its leading parts and what follows its last slash.  Which parts are in
the table is said by counting where they stand in the names, and a compressed
name gives the name back when every character that is the number of a part is
replaced by the part.  For that the names must not have such characters of
their own, and the numbers must be codes of them.
-/

namespace ZoneTables.Name

/-! ## Parts of names -/

/-- Whether a text is a part: it has a slash at its end and nowhere else. -/
def IsPart (part : List Char) : Prop :=
  ∃ front, '/' ∉ front ∧ part = front ++ ['/']

theorem split_of_not_mem {cs : List Char} (h : '/' ∉ cs) : split cs = ([], cs) := by
  induction cs with
  | nil => rfl
  | cons c cs ih =>
    obtain ⟨hc, hcs⟩ := not_or.1 (mt List.mem_cons.2 h)
    rw [split, ih hcs]
    dsimp only
    rw [if_neg (Ne.symm hc)]

theorem split_append {front : List Char} (h : '/' ∉ front) (rest : List Char) :
    split (front ++ '/' :: rest) =
      ((front ++ ['/']) :: (split rest).1, (split rest).2) := by
  induction front with
  | nil =>
    rw [List.nil_append, split]
    generalize split rest = parts
    obtain ⟨_ | ⟨part, parts⟩, base⟩ := parts <;> rfl
  | cons c front ih =>
    obtain ⟨hc, hfront⟩ := not_or.1 (mt List.mem_cons.2 h)
    rw [List.cons_append, split, ih hfront]
    dsimp only
    rw [if_neg (Ne.symm hc), List.cons_append]

theorem first_slash (cs : List Char) :
    '/' ∉ cs ∨ ∃ front rest, '/' ∉ front ∧ cs = front ++ '/' :: rest := by
  by_cases h : '/' ∈ cs
  · obtain ⟨front, rest, hcs, hfront⟩ := List.eq_append_cons_of_mem h
    exact .inr ⟨front, rest, hfront, hcs⟩
  · exact .inl h

theorem slash_induction {P : List Char → Prop}
    (last : ∀ cs, '/' ∉ cs → P cs)
    (part : ∀ front rest, '/' ∉ front → P rest → P (front ++ '/' :: rest))
    (cs : List Char) : P cs := by
  rcases first_slash cs with h | ⟨front, rest, hfront, hcs⟩
  · exact last cs h
  · have hshort : rest.length < cs.length := by
      rw [hcs, List.length_append, List.length_cons]
      omega
    exact hcs ▸ part front rest hfront (slash_induction last part rest)
termination_by cs.length

theorem flatten_split (cs : List Char) :
    (split cs).1.flatten ++ (split cs).2 = cs := by
  induction cs using slash_induction with
  | last cs h => rw [split_of_not_mem h]; rfl
  | part front rest h ih =>
    rw [split_append h, List.flatten_cons, List.append_assoc, ih,
      List.append_assoc]
    rfl

theorem isPart_of_mem_split {cs part : List Char} (h : part ∈ (split cs).1) :
    IsPart part := by
  induction cs using slash_induction with
  | last cs hcs =>
    rw [split_of_not_mem hcs] at h
    exact absurd h List.not_mem_nil
  | part front rest hfront ih =>
    rw [split_append hfront] at h
    rcases List.mem_cons.1 h with rfl | h
    · exact ⟨front, hfront, rfl⟩
    · exact ih h

/-! ## How often a part occurs -/

def behindSlashes : List Char → List (List Char)
  | [] => []
  | c :: cs => if c = '/' then cs :: behindSlashes cs else behindSlashes cs

/-- How often a part stands at the start of a name or behind a slash. -/
def occurrences (part name : String) : Nat :=
  (name.toList :: behindSlashes name.toList).countP fun rest =>
    part.toList.isPrefixOf rest

theorem behindSlashes_of_not_mem {cs : List Char} (h : '/' ∉ cs) :
    behindSlashes cs = [] := by
  induction cs with
  | nil => rfl
  | cons c cs ih =>
    obtain ⟨hc, hcs⟩ := not_or.1 (mt List.mem_cons.2 h)
    rw [behindSlashes, if_neg (Ne.symm hc), ih hcs]

theorem behindSlashes_append {front : List Char} (h : '/' ∉ front)
    (rest : List Char) :
    behindSlashes (front ++ '/' :: rest) = rest :: behindSlashes rest := by
  induction front with
  | nil => rfl
  | cons c front ih =>
    obtain ⟨hc, hfront⟩ := not_or.1 (mt List.mem_cons.2 h)
    rw [List.cons_append, behindSlashes, if_neg (Ne.symm hc), ih hfront]

theorem isPrefix_iff {part front : List Char} (hpart : IsPart part)
    (h : '/' ∉ front) (rest : List Char) :
    part <+: front ++ '/' :: rest ↔ part = front ++ ['/'] := by
  obtain ⟨front', hfront', rfl⟩ := hpart
  constructor
  · rintro ⟨more, hmore⟩
    rw [List.append_assoc, List.singleton_append] at hmore
    have hnot : ∀ {front : List Char}, '/' ∉ front → ∀ c ∈ front, c != '/' :=
      fun h c hc => bne_iff_ne.2 fun heq => h (heq ▸ hc)
    have hslash : ∀ rest c, ('/' :: rest).head? = some c → (c != '/') = false := by
      intro rest c hc
      cases hc
      rfl
    have hfronts := congrArg (List.takeWhile (· != '/')) hmore
    rw [(Text.span_append _ (hnot hfront') (hslash more)).1,
      (Text.span_append _ (hnot h) (hslash rest)).1] at hfronts
    rw [hfronts]
  · intro heq
    rw [heq]
    exact ⟨rest, by rw [List.append_assoc]; rfl⟩

theorem count_split {part : List Char} (hpart : IsPart part) (cs : List Char) :
    (split cs).1.count part =
      (cs :: behindSlashes cs).countP fun rest => part.isPrefixOf rest := by
  induction cs using slash_induction with
  | last cs h =>
    have hnone : part.isPrefixOf cs = false := by
      rw [Bool.eq_false_iff, ne_eq, List.isPrefixOf_iff_prefix]
      obtain ⟨front, _, rfl⟩ := hpart
      intro hstart
      exact h (hstart.subset (List.mem_append_right _ List.mem_cons_self))
    rw [split_of_not_mem h, behindSlashes_of_not_mem h, List.countP_cons, hnone]
    rfl
  | part front rest h ih =>
    rw [split_append h, behindSlashes_append h, List.countP_cons, ← ih,
      List.count_cons]
    have hfirst : (front ++ ['/'] == part) =
        part.isPrefixOf (front ++ '/' :: rest) := by
      rw [Bool.eq_iff_iff, beq_iff_eq, List.isPrefixOf_iff_prefix,
        isPrefix_iff hpart h, eq_comm]
    rw [hfirst]

theorem count_fragments {part : String} (hpart : IsPart part.toList)
    (name : String) : (fragments name).count part = occurrences part name := by
  have hinj : Function.Injective String.ofList := fun _ _ => String.ofList_inj.1
  unfold fragments occurrences
  rw [← count_split hpart, ← List.count_map_of_injective _ _ hinj,
    String.ofList_toList]

/-! ## The table -/

def totalOccurrences (part : String) : List String → Nat
  | [] => 0
  | name :: names => occurrences part name + totalOccurrences part names

/-- Whether a table holds the parts of names that are long and frequent enough,
in order and numbered from 1. -/
structure HoldsFragments (table : StringTable) (names : List String) : Prop where
  sorted : table.entries.Pairwise (· < ·)
  mem_entries_iff : ∀ part, part ∈ table.entries ↔
    IsPart part.toList ∧ minFragmentSize ≤ part.utf8ByteSize ∧
      minFragmentCount ≤ totalOccurrences part names
  index?_iff : ∀ part i, table.index? part = some i ↔
    1 ≤ i ∧ table.entries[i - 1]? = some part

theorem getD_foldl_count (l : List String) (counts : NameMap Nat) (part : String) :
    ((l.foldl (fun counts f => counts.alter f fun n => n.getD 0 + 1) counts).get?
      part).getD 0 = (counts.get? part).getD 0 + l.count part := by
  induction l generalizing counts with
  | nil => rfl
  | cons f l ih =>
    rw [List.foldl_cons, ih, NameMap.get?_alter, List.count_cons]
    by_cases h : part = f
    · subst h
      rw [if_pos rfl, Option.getD_some, if_pos (beq_self_eq_true part)]
      omega
    · rw [if_neg h, if_neg fun heq => h (beq_iff_eq.1 heq).symm, Nat.add_zero]

theorem isPart_of_mem_fragments {part name : String} (h : part ∈ fragments name) :
    IsPart part.toList := by
  obtain ⟨cs, hcs, rfl⟩ := List.mem_map.1 h
  rw [String.toList_ofList]
  exact isPart_of_mem_split hcs

theorem count_flatMap_fragments {part : String} (hpart : IsPart part.toList)
    (names : List String) :
    (names.flatMap fragments).count part = totalOccurrences part names := by
  induction names with
  | nil => rfl
  | cons name names ih =>
    rw [List.flatMap_cons, List.count_append, count_fragments hpart, ih]
    rfl

theorem minFragmentCount_le_iff {names : List String} {part : String} :
    minFragmentCount ≤ ((fragmentCounts names).get? part).getD 0 ↔
      IsPart part.toList ∧ minFragmentSize ≤ part.utf8ByteSize ∧
        minFragmentCount ≤ totalOccurrences part names := by
  have hlongs : ∀ l : List String, minFragmentSize ≤ part.utf8ByteSize →
      (l.filter fun f => minFragmentSize ≤ f.utf8ByteSize).count part =
        l.count part :=
    fun l hlong => List.count_filter (by exact decide_eq_true hlong)
  unfold fragmentCounts
  rw [getD_foldl_count, NameMap.get?_empty, Option.getD_none, Nat.zero_add]
  constructor
  · intro h
    obtain ⟨hmem, hlong⟩ := List.mem_filter.1
      (List.count_pos_iff.1 (Nat.lt_of_lt_of_le (by decide) h))
    obtain ⟨name, _, hname⟩ := List.mem_flatMap.1 hmem
    have hpart := isPart_of_mem_fragments hname
    rw [hlongs _ (of_decide_eq_true hlong), count_flatMap_fragments hpart] at h
    exact ⟨hpart, of_decide_eq_true hlong, h⟩
  · rintro ⟨hpart, hlong, h⟩
    rw [hlongs _ hlong, count_flatMap_fragments hpart]
    exact h

theorem contains_frequent (counts : NameMap Nat) (part : String) :
    (counts.filter fun _ n => minFragmentCount ≤ n).contains part ↔
      minFragmentCount ≤ (counts.get? part).getD 0 := by
  rw [NameMap.contains, NameMap.get?_filter]
  cases counts.get? part with
  | none =>
    rw [Option.filter_none, Option.getD_none]
    exact iff_of_false (by decide) (by decide)
  | some n =>
    rw [Option.filter_some, Option.getD_some]
    split <;> simp_all

theorem holdsFragments_fragmentTable (names : List String) :
    HoldsFragments (fragmentTable names) names where
  sorted := NameMap.keys_sorted _
  mem_entries_iff part := by
    show part ∈ (NameSet.ofList _).keys ↔ _
    rw [← NameMap.contains_iff_mem_keys, NameSet.contains_ofList,
      ← NameMap.contains_iff_mem_keys, contains_frequent,
      minFragmentCount_le_iff]
  index?_iff _ _ := StringTable.index?_eq_some_iff

/-! ## Compression -/

/-- Whether a name has no characters that can stand for a part. -/
def IsPlain (name : String) : Prop := ∀ c ∈ name.toList, maxFragments < c.toNat

theorem IsPlain.of_mem_split {name : String} (h : IsPlain name) :
    (∀ part ∈ (split name.toList).1, ∀ c ∈ part, maxFragments < c.toNat) ∧
      ∀ c ∈ (split name.toList).2, maxFragments < c.toNat := by
  unfold IsPlain at h
  rw [← flatten_split name.toList] at h
  exact ⟨fun part hpart c hc =>
      h c (List.mem_append_left _ (List.mem_flatten.2 ⟨part, hpart, hc⟩)),
    fun c hc => h c (List.mem_append_right _ hc)⟩

variable {names : List String}

theorem toList_compress (table : StringTable) (name : String) :
    (compress table name).toList =
      ((split name.toList).1.flatMap fun part =>
        (compressFragment table (String.ofList part)).toList) ++
      (split name.toList).2 := by
  unfold compress fragments base
  rw [String.toList_append, String.toList_join, String.toList_ofList,
    List.map_map, List.flatMap_map]
  rfl

theorem toList_expand (table : StringTable) (s : String) :
    (expand table s).toList =
      s.toList.flatMap fun c => (expandChar table c).toList := by
  unfold expand
  rw [String.toList_join, List.flatMap_map]

theorem index?_range (hsize : (fragmentTable names).size ≤ maxFragments)
    {part : String} {i : Nat} (h : (fragmentTable names).index? part = some i) :
    1 ≤ i ∧ i ≤ maxFragments := by
  obtain ⟨hpos, hentry⟩ := StringTable.index?_eq_some_iff.1 h
  have hlt := (List.getElem?_eq_some_iff.1 hentry).1
  have hlength : (fragmentTable names).entries.length = (fragmentTable names).size :=
    List.length_map _
  have hbase : (fragmentTable names).base = 1 := rfl
  omega

theorem toNat_ofNat_index (hsize : (fragmentTable names).size ≤ maxFragments)
    {part : String} {i : Nat} (h : (fragmentTable names).index? part = some i) :
    (Char.ofNat i).toNat = i := by
  have hall : ∀ i ≤ maxFragments, (Char.ofNat i).toNat = i := by decide
  exact hall i (index?_range hsize h).2

theorem compressFragment_of_index? (hsize : (fragmentTable names).size ≤ maxFragments)
    {part : String} {i : Nat} (h : (fragmentTable names).index? part = some i) :
    compressFragment (fragmentTable names) part = String.ofList [Char.ofNat i] := by
  have hrange := (index?_range hsize h).2
  have hvalid : i.isValidChar := .inl (Nat.lt_of_le_of_lt hrange (by decide))
  rw [compressFragment, h]
  exact if_pos hvalid

theorem compressFragment_of_none {table : StringTable} {part : String}
    (h : table.index? part = none) : compressFragment table part = part := by
  rw [compressFragment, h]

theorem expandChar_cases (names : List String) (c : Char) :
    (∃ part, (fragmentTable names).index? part = some c.toNat ∧
        expandChar (fragmentTable names) c = part) ∨
      expandChar (fragmentTable names) c = String.ofList [c] := by
  unfold expandChar StringTable.get?
  split_ifs with hbase
  · exact .inr rfl
  · cases hentry : (fragmentTable names).entries[c.toNat -
        (fragmentTable names).base]? with
    | none => exact .inr rfl
    | some part =>
      exact .inl ⟨part, StringTable.index?_eq_some_iff.2 ⟨by omega, hentry⟩, rfl⟩

theorem expandChar_of_index? {c : Char} {part : String}
    (h : (fragmentTable names).index? part = some c.toNat) :
    expandChar (fragmentTable names) c = part := by
  unfold expandChar
  rw [StringTable.get?_of_index? h, Option.getD_some]

theorem flatMap_expandChar (hsize : (fragmentTable names).size ≤ maxFragments)
    {cs : List Char} (hplain : ∀ c ∈ cs, maxFragments < c.toNat) :
    (cs.flatMap fun c => (expandChar (fragmentTable names) c).toList) = cs := by
  have hkept : ∀ c ∈ cs,
      (expandChar (fragmentTable names) c).toList = [c] := by
    intro c hc
    rcases expandChar_cases names c with ⟨part, hindex, _⟩ | hchar
    · exact absurd (index?_range hsize hindex).2 (Nat.not_le.2 (hplain c hc))
    · rw [hchar, String.toList_ofList]
  rw [List.flatMap_congr hkept]
  exact List.flatMap_singleton' cs

theorem flatMap_compressFragment
    (hsize : (fragmentTable names).size ≤ maxFragments) {part : List Char}
    (hplain : ∀ c ∈ part, maxFragments < c.toNat) :
    ((compressFragment (fragmentTable names) (String.ofList part)).toList.flatMap
      fun c => (expandChar (fragmentTable names) c).toList) = part := by
  cases hindex : (fragmentTable names).index? (String.ofList part) with
  | some i =>
    have hcode : (fragmentTable names).index? (String.ofList part) =
        some (Char.ofNat i).toNat := by
      rw [toNat_ofNat_index hsize hindex, hindex]
    rw [compressFragment_of_index? hsize hindex, String.toList_ofList,
      List.flatMap_singleton, expandChar_of_index? hcode, String.toList_ofList]
  | none =>
    rw [compressFragment_of_none hindex, String.toList_ofList]
    exact flatMap_expandChar hsize hplain

theorem expand_compress (hsize : (fragmentTable names).size ≤ maxFragments)
    {name : String} (hplain : IsPlain name) :
    expand (fragmentTable names) (compress (fragmentTable names) name) = name := by
  obtain ⟨hparts, hrest⟩ := hplain.of_mem_split
  rw [← String.toList_inj, toList_expand, toList_compress, List.flatMap_append,
    List.flatMap_assoc, flatMap_expandChar hsize hrest,
    List.flatMap_congr fun part hpart =>
      flatMap_compressFragment hsize (hparts part hpart),
    List.flatMap_id', flatten_split]

theorem toNat_ne_zero_of_mem_compress
    (hsize : (fragmentTable names).size ≤ maxFragments) {name : String}
    (hplain : IsPlain name) :
    ∀ c ∈ (compress (fragmentTable names) name).toList, c.toNat ≠ 0 := by
  obtain ⟨hparts, hrest⟩ := hplain.of_mem_split
  intro c hc
  rw [toList_compress] at hc
  rcases List.mem_append.1 hc with hc | hc
  · obtain ⟨part, hpart, hc⟩ := List.mem_flatMap.1 hc
    cases hindex : (fragmentTable names).index? (String.ofList part) with
    | some i =>
      rw [compressFragment_of_index? hsize hindex, String.toList_ofList,
        List.mem_singleton] at hc
      have := index?_range hsize hindex
      rw [hc, toNat_ofNat_index hsize hindex]
      omega
    | none =>
      rw [compressFragment_of_none hindex, String.toList_ofList] at hc
      have := hparts part hpart c hc
      omega
  · have := hrest c hc
    omega

theorem utf8ByteSize_of_index? {part : String} {i : Nat}
    (h : (fragmentTable names).index? part = some i) :
    minFragmentSize ≤ part.utf8ByteSize := by
  have hholds := holdsFragments_fragmentTable names
  have hentry := ((hholds.index?_iff part i).1 h).2
  exact ((hholds.mem_entries_iff part).1 (List.mem_of_getElem? hentry)).2.1

theorem utf8Size_le_expandChar (hsize : (fragmentTable names).size ≤ maxFragments)
    (c : Char) : c.utf8Size ≤ (expandChar (fragmentTable names) c).utf8ByteSize := by
  rcases expandChar_cases names c with ⟨part, hindex, hpart⟩ | hchar
  · have hcode := (index?_range hsize hindex).2
    have hone : c.utf8Size = 1 := by
      rw [Char.utf8Size_eq_one_iff, UInt32.le_iff_toNat_le]
      exact Nat.le_trans hcode (by decide)
    have hlong := utf8ByteSize_of_index? hindex
    unfold minFragmentSize at hlong
    rw [hpart]
    omega
  · refine Nat.le_of_eq ?_
    rw [hchar, ← String.singleton_eq_ofList, String.utf8ByteSize_singleton]

theorem utf8ByteSize_le_expand (hsize : (fragmentTable names).size ≤ maxFragments)
    (s : String) : s.utf8ByteSize ≤ (expand (fragmentTable names) s).utf8ByteSize := by
  have hjoin : ∀ cs : List Char, (String.ofList cs).utf8ByteSize ≤
      (String.join (cs.map (expandChar (fragmentTable names)))).utf8ByteSize := by
    intro cs
    induction cs with
    | nil => exact Nat.le_refl _
    | cons c cs ih =>
      have hc := utf8Size_le_expandChar hsize c
      rw [String.ofList_cons, String.utf8ByteSize_append,
        String.utf8ByteSize_singleton, List.map_cons, String.join_cons,
        String.utf8ByteSize_append]
      omega
  have hs := hjoin s.toList
  rwa [String.ofList_toList] at hs

theorem utf8ByteSize_compress_le
    (hsize : (fragmentTable names).size ≤ maxFragments) {name : String}
    (hplain : IsPlain name) :
    (compress (fragmentTable names) name).utf8ByteSize ≤ name.utf8ByteSize := by
  have hle := utf8ByteSize_le_expand hsize (compress (fragmentTable names) name)
  rwa [expand_compress hsize hplain] at hle

/-- The table holds the parts of the names that are long and frequent enough.  If
it has no more of them than there are control characters, and the names have no
such characters, then each name is what its compressed form stands for, so that
no two names have one compressed form, and that form has no character of code 0
and no more bytes than the name. -/
theorem compress_lossless (names : List String) :
    HoldsFragments (fragmentTable names) names ∧
      ((∀ name ∈ names, IsPlain name) →
        (fragmentTable names).size ≤ maxFragments →
        (∀ name ∈ names,
          expand (fragmentTable names) (compress (fragmentTable names) name) = name ∧
          (∀ c ∈ (compress (fragmentTable names) name).toList, c.toNat ≠ 0) ∧
          (compress (fragmentTable names) name).utf8ByteSize ≤
            name.utf8ByteSize) ∧
        ∀ name ∈ names, ∀ other ∈ names,
          compress (fragmentTable names) name =
            compress (fragmentTable names) other → name = other) := by
  refine ⟨holdsFragments_fragmentTable names, fun hplain hsize =>
    ⟨fun name hname => ?_, fun name hname other hother heq => ?_⟩⟩
  · have hname := hplain name hname
    exact ⟨expand_compress hsize hname, toNat_ne_zero_of_mem_compress hsize hname,
      utf8ByteSize_compress_le hsize hname⟩
  · rw [← expand_compress hsize (hplain name hname), heq,
      expand_compress hsize (hplain other hother)]

/-- Names that have one part in four of them, once behind another part. -/
def southAmericanNames : List String :=
  ["America/Argentina/Jujuy", "America/Argentina/Salta", "America/Lima",
    "Etc/America/UTC"]

theorem compress_lossless_southAmericanNames :
    (∀ name ∈ southAmericanNames, IsPlain name) ∧
      (fragmentTable southAmericanNames).entries = ["America/"] ∧
      compress (fragmentTable southAmericanNames) "Etc/America/UTC" =
        "Etc/\x01UTC" ∧
      expand (fragmentTable southAmericanNames) "Etc/\x01UTC" =
        "Etc/America/UTC" := by
  have hplain : ∀ name ∈ southAmericanNames, IsPlain name := by
    have hall : southAmericanNames.all fun name =>
        name.toList.all fun c => maxFragments < c.toNat := by
      decide +kernel
    intro name hname c hc
    exact of_decide_eq_true
      (List.all_eq_true.1 (List.all_eq_true.1 hall name hname) c hc)
  have hentries : (fragmentTable southAmericanNames).entries = ["America/"] := by
    decide +kernel
  have hcompressed :
      compress (fragmentTable southAmericanNames) "Etc/America/UTC" =
        "Etc/\x01UTC" := by
    decide +kernel
  have hsize : (fragmentTable southAmericanNames).size ≤ maxFragments := by
    decide +kernel
  obtain ⟨hname, _⟩ := (compress_lossless southAmericanNames).2 hplain hsize
  have hback := (hname "Etc/America/UTC" (by decide)).1
  rw [hcompressed] at hback
  exact ⟨hplain, hentries, hcompressed, hback⟩

end ZoneTables.Name
