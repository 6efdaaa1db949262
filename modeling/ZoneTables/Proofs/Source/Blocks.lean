import ZoneTables.Proofs.Source.Places
import ZoneTables.Proofs.Source.Reading

/-!
# Blocks of source lines

A record stands on one line, but a zone goes on over the lines that continue
it.  The lines with content of a text that can be read make up such blocks,
and a block says the same whatever was read before it; only the names of
zones and links have to be new.
-/

namespace ZoneTables

def isContinuation (line : List Char) : Bool :=
  (lineContent line).head?.any Text.isBlank

def lineTokens (line : List Char) : List String :=
  (Text.words (lineContent line)).map String.ofList

def continuation? (line : List Char) : Option SourceEra :=
  (SourceEra.read .continuation 0 (lineOrigin line) (lineTokens line)).toOption

structure Block where
  head : List Char
  rest : List (List Char)
  starts : hasContent head ∧ isContinuation head = false
  continues : ∀ line ∈ rest, hasContent line ∧ isContinuation line
deriving DecidableEq

def Block.lines (b : Block) : List (List Char) := b.head :: b.rest

/-- Reads a block, which has to end the zone that it starts. -/
def Source.readBlock? (s : Source) (b : Block) : Option Source :=
  s.readLines? b.lines

/-! ## Reading block by block -/

theorem ReaderState.next?_readContent (s : ReaderState) (origin : SourceLine)
    (content : List Char) :
    (s.readContent origin content).next? =
      if content.head?.any Text.isBlank then
        s.openZone.bind fun zone =>
          (SourceEra.read .continuation 0 origin
            ((Text.words content).map String.ofList)).toOption.map fun era =>
              ⟨(s.source.addEra zone era).uncounted, openAfter zone era⟩
      else if s.openZone.isSome then none
      else
        (Record.read s.source.zones.contains origin
          ((Text.words content).map String.ofList)).toOption.bind fun record =>
            (addRecord origin s.source record).next? := by
  obtain ⟨source, openZone⟩ := s
  unfold readContent
  dsimp only
  split
  · cases openZone with
    | none => rfl
    | some zone => cases SourceEra.read .continuation 0 _ _ <;> rfl
  · cases openZone with
    | some zone => rfl
    | none => cases Record.read source.zones.contains _ _ <;> rfl

theorem ReaderState.next?_eq (s : ReaderState) (line : List Char) :
    s.next? line =
      if isContinuation line then
        s.openZone.bind fun zone => (continuation? line).map fun era =>
          ⟨(s.source.addEra zone era).uncounted, openAfter zone era⟩
      else if s.openZone.isSome then none
      else
        (Record.read s.source.zones.contains (lineOrigin line)
          (lineTokens line)).toOption.bind fun record =>
            (addRecord (lineOrigin line) s.source record).next? :=
  s.next?_readContent (lineOrigin line) (lineContent line)

theorem ReaderState.next?_of_closed {line : List Char}
    (hline : isContinuation line) (s : Source) :
    next? ⟨s, none⟩ line = none := by
  rw [next?_eq, if_pos hline]
  rfl

/-- A zone that is still open cannot be followed by another block. -/
theorem Source.readLines?_append (s : Source) (ls : List (List Char))
    (blocks : List Block) :
    s.readLines? (ls ++ blocks.flatMap Block.lines) =
      (s.readLines? ls).bind fun s =>
        s.readLines? (blocks.flatMap Block.lines) := by
  unfold readLines?
  rw [List.foldlM_append]
  cases ls.foldlM ReaderState.next? ⟨s, none⟩ with
  | none => rfl
  | some t =>
    obtain ⟨t, openZone⟩ := t
    cases openZone with
    | none => rfl
    | some zone =>
      cases blocks with
      | nil => rfl
      | cons b rest =>
        have hhead : ReaderState.next? ⟨t, some zone⟩ b.head = none := by
          rw [ReaderState.next?_eq, b.starts.2]
          rfl
        change ((ReaderState.next? ⟨t, some zone⟩ b.head).bind _).bind _ = none
        rw [hhead]
        rfl

theorem Source.readLines?_flatMap (blocks : List Block) :
    ∀ s : Source, s.readLines? (blocks.flatMap Block.lines) =
      blocks.foldlM readBlock? s := by
  induction blocks with
  | nil => exact fun _ => rfl
  | cons b rest ih =>
    intro s
    rw [List.flatMap_cons, readLines?_append, List.foldlM_cons]
    exact congrArg _ (funext ih)

/-! ## What a block says -/

inductive Entry where
  | rule (policy : String) (rule : SourceRule)
  | zone (name : String) (eras : List SourceEra)
  | link (target name : String)
  | ignored

/-- The eras of a zone from the given one on.  All but the last have an
end. -/
def zoneEras? (era : SourceEra) : List (List Char) → Option (List SourceEra)
  | [] => if era.ends.isNone then some [era] else none
  | line :: rest =>
    if era.ends.isSome then
      (continuation? line).bind fun next =>
        (zoneEras? next rest).map (era :: ·)
    else none

def Record.meaning? (rest : List (List Char)) : Record → Option Entry
  | rule policy r => if rest.isEmpty then some (.rule policy r) else none
  | zone name era => (zoneEras? era rest).map (.zone name)
  | link target name => if rest.isEmpty then some (.link target name) else none
  | ignored _ => if rest.isEmpty then some .ignored else none

def Block.meaning? (b : Block) : Option Entry :=
  (Record.read (fun _ => false) (lineOrigin b.head)
    (lineTokens b.head)).toOption.bind (Record.meaning? b.rest)

def Source.putZone (s : Source) (name : String) (eras : List SourceEra) :
    Source :=
  { s with zones := s.zones.insert name eras, counts := .zero }

def Source.extend? (s : Source) : Entry → Option Source
  | .rule policy rule => some (s.addRule policy rule).uncounted
  | .zone name eras =>
    if s.zones.contains name then none else some (s.putZone name eras)
  | .link target name =>
    if s.links.contains name then none
    else some (s.setLink name target).uncounted
  | .ignored => some s.uncounted

/-! ## Reading a block adds what it says -/

def Record.isFree (taken : String → Bool) : Record → Bool
  | zone name _ => !taken name
  | _ => true

theorem Record.says_iff {taken : String → Bool} {origin : SourceLine}
    {tokens : List String} {record : Record} :
    Says taken origin tokens record ↔
      Says (fun _ => false) origin tokens record ∧ record.isFree taken := by
  constructor
  · intro h
    cases h with
    | rule hword hcount hread => exact ⟨.rule hword hcount hread, rfl⟩
    | zone hword hfree hread =>
      exact ⟨.zone hword rfl hread, by rw [isFree, hfree]; rfl⟩
    | link hword => exact ⟨.link hword, rfl⟩
    | ignored hword => exact ⟨.ignored hword, rfl⟩
  · rintro ⟨h, hfree⟩
    cases h with
    | rule hword hcount hread => exact .rule hword hcount hread
    | zone hword _ hread =>
      rw [isFree, Bool.not_eq_true'] at hfree
      exact .zone hword hfree hread
    | link hword => exact .link hword
    | ignored hword => exact .ignored hword

theorem Record.toOption_read (taken : String → Bool) (origin : SourceLine)
    (tokens : List String) :
    (read taken origin tokens).toOption =
      (read (fun _ => false) origin tokens).toOption.filter
        (isFree taken) := by
  refine Option.ext fun record => ?_
  rw [Option.filter_eq_some_iff, except_toOption_eq_some,
    except_toOption_eq_some, read_eq_ok_iff, read_eq_ok_iff]
  exact says_iff

namespace Source

theorem addEra_putZone (s : Source) (name : String) (eras : List SourceEra)
    (era : SourceEra) :
    ((s.putZone name eras).addEra name era).uncounted =
      s.putZone name (eras ++ [era]) := by
  unfold addEra uncounted putZone NameMap.alter
  dsimp only
  rw [NameMap.get?_insert, if_pos rfl, NameMap.insert_insert]
  rfl

theorem addZone_uncounted {s : Source} {name : String}
    (h : s.zones.contains name = false) (era : SourceEra) :
    (s.addZone name era).uncounted = s.putZone name [era] := by
  have hnew : s.zones.get? name = none := by
    rw [NameMap.contains, Option.isSome_eq_false_iff,
      Option.isNone_iff_eq_none] at h
    exact h
  unfold addZone addEra uncounted putZone NameMap.alter
  dsimp only
  rw [hnew]
  rfl

end Source

namespace ReaderState

theorem foldlM_next?_of_continues (s : Source) (name : String)
    (lines : List (List Char)) :
    ∀ (front : List SourceEra) (era : SourceEra),
      (∀ line ∈ lines, isContinuation line) →
      (lines.foldlM next? ⟨s.putZone name (front ++ [era]),
          openAfter name era⟩).bind closed? =
        (zoneEras? era lines).map fun eras =>
          s.putZone name (front ++ eras) := by
  induction lines with
  | nil =>
    intro front era _
    unfold zoneEras? openAfter
    cases era.ends <;> rfl
  | cons line rest ih =>
    intro front era hlines
    rw [List.forall_mem_cons] at hlines
    unfold zoneEras?
    rw [List.foldlM_cons]
    cases hends : era.ends with
    | none =>
      unfold openAfter
      rw [hends, Option.map_none, next?_of_closed hlines.1]
      rfl
    | some ends =>
      unfold openAfter
      rw [hends, Option.map_some, next?_eq, if_pos hlines.1, Option.bind_some,
        if_pos Option.isSome_some]
      cases continuation? line with
      | none => rfl
      | some next =>
        have hrest := ih (front ++ [era]) next hlines.2
        rw [← Source.addEra_putZone] at hrest
        rw [Option.map_some, Option.bind_some]
        refine hrest.trans ?_
        cases zoneEras? next rest with
        | none => rfl
        | some eras =>
          exact congrArg (fun eras => some (s.putZone name eras))
            (List.append_assoc front [era] eras)

end ReaderState

namespace Source

theorem foldlM_next?_of_alone {s : Source} {rest : List (List Char)}
    (hrest : ∀ line ∈ rest, isContinuation line) :
    (rest.foldlM ReaderState.next? ⟨s, none⟩).bind ReaderState.closed? =
      if rest.isEmpty then some s else none := by
  cases rest with
  | nil => rfl
  | cons line rest =>
    rw [List.foldlM_cons,
      ReaderState.next?_of_closed (hrest line List.mem_cons_self)]
    rfl

theorem addRecord_link (origin : SourceLine) (s : Source)
    (target name : String) :
    (ReaderState.addRecord origin s (.link target name)).next? =
      (s.extend? (.link target name)).map fun s => ⟨s, none⟩ := by
  unfold ReaderState.addRecord extend?
  dsimp only
  split <;> rfl

theorem bind_addRecord {s : Source} {record : Record}
    (hfree : record.isFree s.zones.contains) {rest : List (List Char)}
    (hrest : ∀ line ∈ rest, isContinuation line) (origin : SourceLine) :
    ((ReaderState.addRecord origin s record).next?.bind fun t =>
        (rest.foldlM ReaderState.next? t).bind ReaderState.closed?) =
      (record.meaning? rest).bind s.extend? := by
  cases record with
  | rule policy r =>
    refine (foldlM_next?_of_alone hrest).trans ?_
    unfold Record.meaning?
    split <;> rfl
  | zone name era =>
    have hnew : s.zones.contains name = false := by
      rw [Record.isFree, Bool.not_eq_true'] at hfree
      exact hfree
    have heras := ReaderState.foldlM_next?_of_continues s name rest [] era hrest
    rw [List.nil_append, ← addZone_uncounted hnew] at heras
    refine heras.trans ?_
    dsimp only [Record.meaning?]
    cases zoneEras? era rest with
    | none => rfl
    | some eras =>
      change _ = extend? s (.zone name eras)
      rw [extend?, hnew]
      rfl
  | link target name =>
    rw [addRecord_link, Option.bind_map]
    dsimp only [Record.meaning?]
    cases hadd : s.extend? (.link target name) with
    | none =>
      split
      · exact hadd.symm
      · rfl
    | some t =>
      refine (foldlM_next?_of_alone hrest).trans ?_
      split
      · exact hadd.symm
      · rfl
  | ignored keyword =>
    refine (foldlM_next?_of_alone hrest).trans ?_
    unfold Record.meaning?
    split <;> rfl

theorem bind_extend?_of_not_isFree {s : Source} {record : Record}
    (h : record.isFree s.zones.contains = false) (rest : List (List Char)) :
    (record.meaning? rest).bind s.extend? = none := by
  cases record with
  | zone name era =>
    have htaken : s.zones.contains name := by
      rw [Record.isFree, Bool.not_eq_false'] at h
      exact h
    dsimp only [Record.meaning?]
    cases zoneEras? era rest with
    | none => rfl
    | some eras => exact if_pos htaken
  | rule policy r => cases h
  | link target name => cases h
  | ignored keyword => cases h

theorem readBlock?_eq (s : Source) (b : Block) :
    s.readBlock? b = b.meaning?.bind s.extend? := by
  have hread := Record.toOption_read s.zones.contains (lineOrigin b.head)
    (lineTokens b.head)
  have hrest : ∀ line ∈ b.rest, isContinuation line :=
    fun line hline => (b.continues line hline).2
  unfold readBlock? readLines? Block.lines
  have hhead : ReaderState.next? ⟨s, none⟩ b.head =
      (Record.read s.zones.contains (lineOrigin b.head)
        (lineTokens b.head)).toOption.bind fun record =>
          (ReaderState.addRecord (lineOrigin b.head) s record).next? := by
    rw [ReaderState.next?_eq, b.starts.2]
    rfl
  rw [List.foldlM_cons, hhead, hread, Block.meaning?]
  cases (Record.read (fun _ => false) (lineOrigin b.head)
      (lineTokens b.head)).toOption with
  | none => rfl
  | some record =>
    rw [Option.bind_some]
    cases hfree : record.isFree s.zones.contains with
    | true =>
      rw [Option.filter_some_pos hfree,
        ← bind_addRecord hfree hrest (lineOrigin b.head)]
      exact Option.bind_assoc _ _ _
    | false =>
      rw [Option.filter_some_neg hfree]
      exact (bind_extend?_of_not_isFree hfree b.rest).symm

end Source

end ZoneTables
