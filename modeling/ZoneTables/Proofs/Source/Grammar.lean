import ZoneTables.Proofs.Source.Arrangement

/-!
# The grammar of source text

What a text has to look like, said without reading it: its lines with content
split into records of one line and into zones, which go on over the lines behind
them as long as their eras have an end.  A text is read without a fault exactly
if it is of this form and its zones and links are new; then its records are
added, and nothing else.  A fault stands on the first line with which a text can
no longer go on to such a form.
-/

namespace ZoneTables

/-! ## Fields -/

inductive SourceRule.Says (origin : SourceLine) :
    List String → SourceRule → Prop where
  | fields {first last kind month day time save letter : String}
      {fromYear toYear seconds amount : Int} {inMonth : Nat} {on : DaySpec}
      {frame : TimeFrame}
      (from_eq : Field.year first = .ok fromYear)
      (to_eq : Field.lastYear last fromYear = .ok toYear)
      (month_eq : Field.month month = .ok inMonth)
      (day_eq : Field.daySpec day = .ok on)
      (time_eq : Field.time time = .ok (seconds, frame))
      (save_eq : Field.save save = .ok amount) :
      Says origin [first, last, kind, month, day, time, save, letter]
        ⟨fromYear, toYear, inMonth, on, seconds, frame, amount, letter, origin⟩

/-- What the fields behind the format of an era say about its end.  Behind the
year there are three more at most; what is missing is the first of its kind. -/
inductive SourceUntil.Says : List String → Option SourceUntil → Prop where
  | none : Says [] none
  | some {year : String} {rest : List String} {y seconds : Int} {month : Nat}
      {day : DaySpec} {frame : TimeFrame}
      (count : rest.length ≤ 3)
      (year_eq : Field.year year = .ok y)
      (month_eq : Field.optional Field.month 1 rest[0]? = .ok month)
      (day_eq : Field.optional Field.daySpec (.exact 1) rest[1]? = .ok day)
      (time_eq : Field.optional Field.time (0, .wall) rest[2]? =
        .ok (seconds, frame)) :
      Says (year :: rest) (some ⟨y, month, day, seconds, frame⟩)

inductive SourceEra.Says (origin : SourceLine) :
    List String → SourceEra → Prop where
  | fields {offset rules format : String} {rest : List String}
      {stdOffset : Int} {ends : Option SourceUntil}
      (offset_eq : Field.amount offset = .ok stdOffset)
      (ends_say : SourceUntil.Says rest ends) :
      Says origin (offset :: rules :: format :: rest)
        ⟨stdOffset, rules, format, ends, origin⟩

theorem SourceRule.read_eq_ok_iff {origin : SourceLine} {fields : List String}
    {r : SourceRule} : read origin fields = .ok r ↔ Says origin fields r := by
  constructor
  · intro h
    unfold read at h
    split at h
    · rw [onLine_eq_ok] at h
      obtain ⟨fromYear, hfirst, h⟩ := except_bind_eq_ok.1 h
      obtain ⟨toYear, hlast, h⟩ := except_bind_eq_ok.1 h
      obtain ⟨⟨seconds, frame⟩, htime, h⟩ := except_bind_eq_ok.1 h
      obtain ⟨inMonth, hmonth, h⟩ := except_bind_eq_ok.1 h
      obtain ⟨on, hday, h⟩ := except_bind_eq_ok.1 h
      obtain ⟨amount, hsave, h⟩ := except_bind_eq_ok.1 h
      cases h
      exact .fields hfirst hlast hmonth hday htime hsave
    · cases h
  · rintro ⟨hfirst, hlast, hmonth, hday, htime, hsave⟩
    unfold read
    rw [onLine_eq_ok, hfirst]
    simp only [except_bind_eq_ok]
    exact ⟨_, rfl, _, hlast, _, htime, _, hmonth, _, hday, _, hsave, rfl⟩

theorem SourceUntil.readEnd_eq_ok_iff {fields : List String}
    {ends : Option SourceUntil} :
    fields.length ≤ 4 ∧ readEnd fields = .ok ends ↔ Says fields ends := by
  constructor
  · rintro ⟨hcount, h⟩
    cases fields with
    | nil =>
      cases h
      exact .none
    | cons year rest =>
      obtain ⟨u, hread, h⟩ := except_bind_eq_ok.1 h
      cases h
      unfold read at hread
      obtain ⟨y, hyear, h⟩ := except_bind_eq_ok.1 hread
      obtain ⟨month, hmonth, h⟩ := except_bind_eq_ok.1 h
      obtain ⟨day, hday, h⟩ := except_bind_eq_ok.1 h
      obtain ⟨⟨seconds, frame⟩, htime, h⟩ := except_bind_eq_ok.1 h
      cases h
      exact .some (Nat.le_of_succ_le_succ hcount) hyear hmonth hday htime
  · intro h
    cases h with
    | none => exact ⟨Nat.zero_le _, rfl⟩
    | some hcount hyear hmonth hday htime =>
      refine ⟨Nat.succ_le_succ hcount, ?_⟩
      unfold readEnd read
      simp only [except_bind_eq_ok]
      exact ⟨_, ⟨_, hyear, _, hmonth, _, hday, _, htime, rfl⟩, rfl⟩

theorem SourceEra.read_eq_ok_iff {kind : RecordKind} {before : Nat}
    {origin : SourceLine} {fields : List String} {era : SourceEra} :
    read kind before origin fields = .ok era ↔ Says origin fields era := by
  constructor
  · intro h
    unfold read at h
    split at h
    · split at h
      · cases h
      · rename_i hcount
        rw [onLine_eq_ok] at h
        obtain ⟨stdOffset, hoffset, h⟩ := except_bind_eq_ok.1 h
        obtain ⟨ends, hends, h⟩ := except_bind_eq_ok.1 h
        cases h
        exact .fields hoffset
          (SourceUntil.readEnd_eq_ok_iff.1 ⟨Nat.le_of_not_lt hcount, hends⟩)
    · cases h
  · rintro ⟨hoffset, hends⟩
    obtain ⟨hcount, hends⟩ := SourceUntil.readEnd_eq_ok_iff.2 hends
    unfold read
    dsimp only
    rw [if_neg (Nat.not_lt.2 hcount), onLine_eq_ok]
    simp only [except_bind_eq_ok]
    exact ⟨_, hoffset, _, hends, rfl⟩

/-! ## Lines -/

def SourceText.lines (t : SourceText) : List (List Char) :=
  Text.lines t.text.toList

structure PlacedLine where
  origin : SourceLine
  content : List Char

namespace PlacedLine

def isIndented (l : PlacedLine) : Bool := l.content.head?.any Text.isBlank

def words (l : PlacedLine) : List String :=
  (Text.words l.content).map String.ofList

def ofLine (file : String) (number : Nat) (line : List Char) : PlacedLine :=
  ⟨⟨file, number, String.ofList (Text.trimEnd line)⟩, lineContent line⟩

end PlacedLine

def placedLines (file : String) (number : Nat) (ls : List (List Char)) :
    List PlacedLine :=
  ((ls.zipIdx number).filter fun p => hasContent p.1).map fun p =>
    .ofLine file p.2 p.1

/-! ## The grammar -/

/-- What lines say that belong together: a record on one line, or a zone with
the lines that continue it. -/
inductive BlockSays : List PlacedLine → Entry → Prop where
  | rule {line : PlacedLine} {keyword policy : String} {fields : List String}
      {r : SourceRule}
      (start : line.isIndented = false)
      (words : line.words = keyword :: policy :: fields)
      (word : keywordWord keyword = "rule" ∨ keywordWord keyword = "r")
      (fields_say : SourceRule.Says line.origin fields r) :
      BlockSays [line] (.rule policy r)
  | link {line : PlacedLine} {keyword target name : String}
      (start : line.isIndented = false)
      (words : line.words = [keyword, target, name])
      (word : keywordWord keyword = "link" ∨ keywordWord keyword = "l") :
      BlockSays [line] (.link target name)
  | ignored {line : PlacedLine} {keyword : String} {fields : List String}
      (start : line.isIndented = false)
      (words : line.words = keyword :: fields)
      (word : keywordWord keyword = "leap" ∨ keywordWord keyword = "expires") :
      BlockSays [line] .ignored
  | zone {line : PlacedLine} {rest : List PlacedLine} {keyword name : String}
      {fields : List String} {era : SourceEra} {eras : List SourceEra}
      (start : line.isIndented = false)
      (words : line.words = keyword :: name :: fields)
      (word : keywordWord keyword = "zone" ∨ keywordWord keyword = "z")
      (fields_say : SourceEra.Says line.origin fields era)
      (indented : ∀ l ∈ rest, l.isIndented)
      (continued : List.Forall₂ (fun l => SourceEra.Says l.origin l.words)
        rest eras)
      (joined : ErasJoined false (era :: eras)) :
      BlockSays (line :: rest) (.zone name (era :: eras))

def Splits (lines : List PlacedLine) (entries : List Entry) : Prop :=
  ∃ blocks, blocks.flatten = lines ∧ List.Forall₂ BlockSays blocks entries

def NameMap.IsNew {α : Type} (m : NameMap α) (names : List String) : Prop :=
  names.Nodup ∧ ∀ name ∈ names, m.contains name = false

namespace Entry

def zones (entries : List Entry) : List (String × List SourceEra) :=
  entries.filterMap zone?

def links (entries : List Entry) : List (String × String) :=
  entries.filterMap link?

def rulesOf (policy : String) (entries : List Entry) : List SourceRule :=
  ((entries.filterMap rule?).filter fun p => p.1 == policy).map Prod.snd

end Entry

namespace Source

/-- Whether lines say entries that can be added: their zones and links are
new. -/
structure Accepts (s : Source) (lines : List PlacedLine)
    (entries : List Entry) : Prop where
  splits : Splits lines entries
  zones : s.zones.IsNew ((Entry.zones entries).map Prod.fst)
  links : s.links.IsNew ((Entry.links entries).map Prod.fst)

def IsGrammatical (s : Source) (file : String) (ls : List (List Char)) :
    Prop :=
  ∃ entries, s.Accepts (placedLines file 1 ls) entries

/-- Whether lines can go on to a file of the grammar. -/
def IsContinuable (s : Source) (file : String) (ls : List (List Char)) :
    Prop :=
  ∃ more, s.IsGrammatical file (ls ++ more)

/-- Where a file breaks the grammar: at the first line with which it cannot go
on, or at its last one if it could go on and does not. -/
inductive BreaksAt (s : Source) (file : String) :
    List (List Char) → Nat → Prop where
  | line {front : List (List Char)} {line : List Char}
      {back : List (List Char)}
      (before : s.IsContinuable file front)
      (breaks : ¬s.IsContinuable file (front ++ [line])) :
      BreaksAt s file (front ++ line :: back) (front.length + 1)
  | stop {ls : List (List Char)}
      (going : s.IsContinuable file ls) (stops : ¬s.IsGrammatical file ls) :
      BreaksAt s file ls ls.length

structure Extends (s : Source) (entries : List Entry) (t : Source) : Prop where
  rules : ∀ policy, (t.policies.get? policy).getD [] =
    (s.policies.get? policy).getD [] ++ Entry.rulesOf policy entries
  policies : ∀ policy, t.policies.contains policy ↔
    s.policies.contains policy ∨ Entry.rulesOf policy entries ≠ []
  zones : ∀ name eras, t.zones.get? name = some eras ↔
    s.zones.get? name = some eras ∨ .zone name eras ∈ entries
  links : ∀ name target, t.links.get? name = some target ↔
    s.links.get? name = some target ∨ .link target name ∈ entries

end Source

/-! ## Splitting off the first record -/

theorem ErasJoined.singleton_iff {isOpen : Bool} {era : SourceEra} :
    ErasJoined isOpen [era] ↔ era.ends.isSome = isOpen := by
  constructor
  · rintro ⟨front, last, heq, _, hlast⟩
    cases front with
    | nil =>
      cases heq
      exact hlast
    | cons first front => simp at heq
  · rintro rfl
    exact ErasJoined.singleton era

theorem ErasJoined.cons_cons_iff {isOpen : Bool} {era next : SourceEra}
    {eras : List SourceEra} :
    ErasJoined isOpen (era :: next :: eras) ↔
      era.ends.isSome ∧ ErasJoined isOpen (next :: eras) := by
  constructor
  · rintro ⟨front, last, heq, hfront, hlast⟩
    cases front with
    | nil => cases heq
    | cons first front =>
      obtain ⟨rfl, htail⟩ := List.cons.inj heq
      rw [List.forall_mem_cons] at hfront
      exact ⟨hfront.1, front, last, htail, hfront.2, hlast⟩
  · rintro ⟨hera, front, last, heq, hfront, hlast⟩
    exact ⟨era :: front, last, congrArg (era :: ·) heq,
      List.forall_mem_cons.2 ⟨hera, hfront⟩, hlast⟩

theorem splits_nil_iff {entries : List Entry} :
    Splits [] entries ↔ entries = [] := by
  constructor
  · rintro ⟨blocks, hflat, hall⟩
    cases hall with
    | nil => rfl
    | cons hblock _ =>
      rw [List.flatten_cons, List.append_eq_nil_iff] at hflat
      cases hblock <;> cases hflat.1
  · rintro rfl
    exact ⟨[], rfl, .nil⟩

theorem Splits.cons {block lines : List PlacedLine} {entry : Entry}
    {entries : List Entry} (hblock : BlockSays block entry)
    (h : Splits lines entries) : Splits (block ++ lines) (entry :: entries) := by
  obtain ⟨blocks, rfl, hall⟩ := h
  exact ⟨block :: blocks, rfl, .cons hblock hall⟩

def Continues (era : SourceEra) (lines : List PlacedLine)
    (eras : List SourceEra) (entries : List Entry) : Prop :=
  ∃ rest others, rest ++ others = lines ∧ (∀ l ∈ rest, l.isIndented) ∧
    List.Forall₂ (fun l => SourceEra.Says l.origin l.words) rest eras ∧
    ErasJoined false (era :: eras) ∧ Splits others entries

section Continues

variable {era : SourceEra} {lines : List PlacedLine} {eras : List SourceEra}
  {entries : List Entry}

theorem continues_of_none (hends : era.ends = none) :
    Continues era lines eras entries ↔ eras = [] ∧ Splits lines entries := by
  constructor
  · rintro ⟨rest, others, rfl, _, hall, hjoined, hothers⟩
    cases eras with
    | nil =>
      cases hall
      exact ⟨rfl, hothers⟩
    | cons next eras =>
      rw [ErasJoined.cons_cons_iff, hends] at hjoined
      cases hjoined.1
  · rintro ⟨rfl, h⟩
    refine ⟨[], lines, rfl, nofun, .nil, ?_, h⟩
    rw [ErasJoined.singleton_iff, hends]
    rfl

theorem continues_of_isSome (hends : era.ends.isSome) :
    Continues era lines eras entries ↔ ∃ l rest next eras',
      lines = l :: rest ∧ eras = next :: eras' ∧ l.isIndented ∧
        SourceEra.Says l.origin l.words next ∧
        Continues next rest eras' entries := by
  constructor
  · rintro ⟨rest, others, rfl, hindented, hall, hjoined, hothers⟩
    cases hall with
    | nil =>
      rw [ErasJoined.singleton_iff, hends] at hjoined
      cases hjoined
    | cons hnext hall =>
      rw [List.forall_mem_cons] at hindented
      exact ⟨_, _, _, _, rfl, rfl, hindented.1, hnext, _, others, rfl,
        hindented.2, hall, (ErasJoined.cons_cons_iff.1 hjoined).2, hothers⟩
  · rintro ⟨l, _, next, eras', rfl, rfl, hl, hnext, rest, others, rfl,
      hindented, hall, hjoined, hothers⟩
    exact ⟨l :: rest, others, rfl, List.forall_mem_cons.2 ⟨hl, hindented⟩,
      .cons hnext hall, ErasJoined.cons_cons_iff.2 ⟨hends, hjoined⟩, hothers⟩

end Continues

def Record.Leads (lines : List PlacedLine) (entries : List Entry) :
    Record → Prop
  | rule policy r => ∃ rest, entries = .rule policy r :: rest ∧
    Splits lines rest
  | zone name era => ∃ eras rest, entries = .zone name (era :: eras) :: rest ∧
    Continues era lines eras rest
  | link target name => ∃ rest, entries = .link target name :: rest ∧
    Splits lines rest
  | ignored _ => ∃ rest, entries = .ignored :: rest ∧ Splits lines rest

theorem SourceRule.Says.length_eq {origin : SourceLine} {fields : List String}
    {r : SourceRule} (h : Says origin fields r) : fields.length = 8 := by
  cases h
  rfl

theorem splits_cons_iff {line : PlacedLine} {lines : List PlacedLine}
    {entries : List Entry} :
    Splits (line :: lines) entries ↔ line.isIndented = false ∧
      ∃ record, Record.Says (fun _ => false) line.origin line.words record ∧
        record.Leads lines entries := by
  constructor
  · rintro ⟨blocks, hflat, hall⟩
    cases hall with
    | nil => cases hflat
    | @cons block entry blocks entries hblock hall =>
      cases hblock with
      | rule hstart hwords hword hsaid =>
        obtain ⟨rfl, rfl⟩ := List.cons.inj hflat
        refine ⟨hstart, .rule _ _, ?_, _, rfl, blocks, rfl, hall⟩
        rw [hwords]
        exact .rule hword hsaid.length_eq (SourceRule.read_eq_ok_iff.2 hsaid)
      | link hstart hwords hword =>
        obtain ⟨rfl, rfl⟩ := List.cons.inj hflat
        refine ⟨hstart, .link _ _, ?_, _, rfl, blocks, rfl, hall⟩
        rw [hwords]
        exact .link hword
      | @ignored _ keyword _ hstart hwords hword =>
        obtain ⟨rfl, rfl⟩ := List.cons.inj hflat
        refine ⟨hstart, .ignored keyword, ?_, _, rfl, blocks, rfl, hall⟩
        rw [hwords]
        exact .ignored hword
      | zone hstart hwords hword hsaid hindented hcontinued hjoined =>
        obtain ⟨rfl, rfl⟩ := List.cons.inj hflat
        refine ⟨hstart, .zone _ _, ?_, _, _, rfl, _, _, rfl, hindented,
          hcontinued, hjoined, blocks, rfl, hall⟩
        rw [hwords]
        exact .zone hword rfl (SourceEra.read_eq_ok_iff.2 hsaid)
  · rintro ⟨hstart, record, hsaid, hleads⟩
    generalize hwords : line.words = words at hsaid
    cases hsaid with
    | rule hword _ hread =>
      obtain ⟨rest, rfl, hrest⟩ := hleads
      exact hrest.cons
        (.rule hstart hwords hword (SourceRule.read_eq_ok_iff.1 hread))
    | zone hword _ hread =>
      obtain ⟨eras, rest, rfl, l, others, rfl, hindented, hall, hjoined,
        hothers⟩ := hleads
      exact hothers.cons (.zone hstart hwords hword
        (SourceEra.read_eq_ok_iff.1 hread) hindented hall hjoined)
    | link hword =>
      obtain ⟨rest, rfl, hrest⟩ := hleads
      exact hrest.cons (.link hstart hwords hword)
    | ignored hword =>
      obtain ⟨rest, rfl, hrest⟩ := hleads
      exact hrest.cons (.ignored hstart hwords hword)

end ZoneTables
