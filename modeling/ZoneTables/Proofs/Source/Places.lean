import ZoneTables.NameMap.Lookup
import ZoneTables.Source.Reader

/-!
# Reading without places

Records keep the place of their line, but nothing is read differently for it,
and lines without content are only counted.  So what texts give, apart from
places and counts, is given by their lines with content alone.
-/

namespace ZoneTables

/-! ## Forgetting places -/

def SourceLine.unplaced (l : SourceLine) : SourceLine := ⟨"", 0, l.text⟩

def SourceRule.unplaced (r : SourceRule) : SourceRule :=
  { r with origin := r.origin.unplaced }

def SourceEra.unplaced (era : SourceEra) : SourceEra :=
  { era with origin := era.origin.unplaced }

def Record.unplaced : Record → Record
  | rule policy r => rule policy r.unplaced
  | zone name era => zone name era.unplaced
  | link target name => link target name
  | ignored keyword => ignored keyword

namespace Source

def uncounted (s : Source) : Source := { s with counts := .zero }

def unplaced (s : Source) : Source where
  policies := s.policies.map fun _ rules => rules.map SourceRule.unplaced
  zones := s.zones.map fun _ eras => eras.map SourceEra.unplaced
  links := s.links
  counts := .zero

end Source

namespace NameMap

variable {α β : Type}

def push (m : NameMap (List α)) (p : String × α) : NameMap (List α) :=
  m.alter p.1 fun values => values.getD [] ++ [p.2]

theorem map_push (f : α → β) (m : NameMap (List α)) (p : String × α) :
    (m.push p).map (fun _ values => values.map f) =
      (m.map fun _ values => values.map f).push (p.1, f p.2) :=
  map_alter m p.1 fun values => by cases values <;> simp

end NameMap

namespace Source

variable (s : Source)

theorem unplaced_addRule (policy : String) (r : SourceRule) :
    (s.addRule policy r).unplaced =
      (s.unplaced.addRule policy r.unplaced).uncounted :=
  congrArg (Source.mk · s.unplaced.zones s.links .zero)
    (NameMap.map_push SourceRule.unplaced s.policies (policy, r))

theorem unplaced_addEra (zone : String) (era : SourceEra) :
    (s.addEra zone era).unplaced =
      (s.unplaced.addEra zone era.unplaced).uncounted :=
  congrArg (Source.mk s.unplaced.policies · s.links .zero)
    (NameMap.map_push SourceEra.unplaced s.zones (zone, era))

theorem unplaced_addZone (zone : String) (era : SourceEra) :
    (s.addZone zone era).unplaced =
      (s.unplaced.addZone zone era.unplaced).uncounted :=
  s.unplaced_addEra zone era

end Source

/-! ## Records -/

variable {α β γ : Type}

theorem except_map_bind {ε : Type} (x : Except ε α) (f : α → Except ε β)
    (g : β → γ) : (x >>= f).map g = x >>= fun a => (f a).map g := by
  cases x <;> rfl

theorem onLine_map (x : Except FieldError α) (g : α → β) :
    (onLine x).map g = onLine (x.map g) := by
  cases x <;> rfl

theorem SourceRule.read_unplaced (origin : SourceLine) (fields : List String) :
    read origin.unplaced fields = (read origin fields).map unplaced := by
  unfold read
  split
  · rw [onLine_map]
    simp only [except_map_bind]
    rfl
  · rfl

theorem SourceEra.read_unplaced (kind : RecordKind) (before : Nat)
    (origin : SourceLine) (fields : List String) :
    read kind before origin.unplaced fields =
      (read kind before origin fields).map unplaced := by
  unfold read
  split
  · split
    · rfl
    · rw [onLine_map]
      simp only [except_map_bind]
      rfl
  · rfl

theorem Record.read_unplaced (taken : String → Bool) (origin : SourceLine)
    (tokens : List String) :
    read taken origin.unplaced tokens =
      (read taken origin tokens).map unplaced := by
  unfold read
  split
  · rfl
  · dsimp only
    split
    · split
      · split
        · rw [SourceRule.read_unplaced]
          cases SourceRule.read origin _ <;> rfl
        · rfl
      · rfl
    · split
      · split
        · split
          · rfl
          · rw [SourceEra.read_unplaced]
            cases SourceEra.read .zone 2 origin _ <;> rfl
        · rfl
      · split
        · split <;> rfl
        · split <;> rfl

/-! ## Lines -/

def ReaderState.uncounted (s : ReaderState) : ReaderState :=
  ⟨s.source.uncounted, s.openZone⟩

def lineOrigin (line : List Char) : SourceLine :=
  ⟨"", 0, String.ofList (Text.trimEnd line)⟩

def LineOutcome.next? (outcome : LineOutcome) : Option ReaderState :=
  if outcome.fault.isNone then some outcome.state.uncounted else none

namespace ReaderState

def unplaced (s : ReaderState) : ReaderState :=
  ⟨s.source.unplaced, s.openZone⟩

/-- What is known after a line with content, unless it has a fault.  The line
has no place and is not counted. -/
def next? (s : ReaderState) (line : List Char) : Option ReaderState :=
  (s.readContent (lineOrigin line) (lineContent line)).next?

def closed? (s : ReaderState) : Option Source :=
  if s.openZone.isNone then some s.source else none

theorem addRecord_unplaced (origin : SourceLine) (s : Source)
    (record : Record) :
    (addRecord origin.unplaced s.unplaced record.unplaced).fault =
        (addRecord origin s record).fault ∧
      (addRecord origin.unplaced s.unplaced record.unplaced).state.uncounted =
        (addRecord origin s record).state.unplaced := by
  cases record with
  | rule policy r =>
    exact ⟨rfl, congrArg (ReaderState.mk · none)
      (s.unplaced_addRule policy r).symm⟩
  | zone name era =>
    exact ⟨rfl, congrArg (ReaderState.mk · (openAfter name era))
      (s.unplaced_addZone name era).symm⟩
  | link target name =>
    unfold addRecord Record.unplaced
    have hlinks : s.unplaced.links = s.links := rfl
    dsimp only
    rw [hlinks]
    split
    · exact ⟨rfl, rfl⟩
    · exact ⟨rfl, rfl⟩
  | ignored keyword => exact ⟨rfl, rfl⟩

theorem readContent_unplaced (origin : SourceLine) (s : ReaderState)
    (content : List Char) :
    (s.unplaced.readContent origin.unplaced content).fault =
        (s.readContent origin content).fault ∧
      (s.unplaced.readContent origin.unplaced content).state.uncounted =
        (s.readContent origin content).state.unplaced := by
  obtain ⟨source, openZone⟩ := s
  unfold readContent
  dsimp only [unplaced]
  split
  · cases openZone with
    | none => exact ⟨rfl, rfl⟩
    | some zone =>
      dsimp only
      rw [SourceEra.read_unplaced]
      cases SourceEra.read .continuation 0 origin _ with
      | error fault => exact ⟨rfl, rfl⟩
      | ok era =>
        exact ⟨rfl, congrArg (ReaderState.mk · (openAfter zone era))
          (source.unplaced_addEra zone era).symm⟩
  · cases openZone with
    | some zone => exact ⟨rfl, rfl⟩
    | none =>
      have htaken : source.unplaced.zones.contains = source.zones.contains :=
        funext fun name => NameMap.contains_map _ _ name
      dsimp only
      rw [Record.read_unplaced, htaken]
      cases Record.read source.zones.contains origin _ with
      | error fault => exact ⟨rfl, rfl⟩
      | ok record => exact addRecord_unplaced origin source record

end ReaderState

def hasContent (line : List Char) : Bool := !(lineContent line).isEmpty

namespace ReaderState

theorem readLine_of_not_hasContent {line : List Char}
    (h : hasContent line = false) (s : ReaderState) (file : String)
    (number : Nat) :
    (s.readLine file number line).fault = none ∧
      (s.readLine file number line).state.unplaced = s.unplaced := by
  have hempty : (lineContent line).isEmpty := by
    rw [hasContent, Bool.not_eq_false'] at h
    exact h
  unfold readLine
  dsimp only
  rw [if_pos hempty]
  exact ⟨rfl, rfl⟩

theorem next?_unplaced {line : List Char} (h : hasContent line)
    (s : ReaderState) (file : String) (number : Nat) :
    s.unplaced.next? line =
      if (s.readLine file number line).fault.isNone then
        some (s.readLine file number line).state.unplaced
      else none := by
  have hcontent : ¬ (lineContent line).isEmpty := by
    rw [hasContent, Bool.not_eq_true'] at h
    rw [h]
    exact Bool.false_ne_true
  let origin : SourceLine := ⟨file, number, String.ofList (Text.trimEnd line)⟩
  let counted : ReaderState := { s with source := s.source.countLine }
  have hline : s.readLine file number line =
      counted.readContent origin (lineContent line) := by
    unfold readLine
    dsimp only
    rw [if_neg hcontent]
  have hsame := readContent_unplaced origin counted (lineContent line)
  rw [hline, ← hsame.1, ← hsame.2]
  rfl

end ReaderState

/-! ## Texts -/

def Reading.records? (r : Reading) : Option Source :=
  if r.fault.isNone then some r.source.unplaced else none

def SourceText.contentLines (t : SourceText) : List (List Char) :=
  (Text.lines t.text.toList).filter hasContent

def Source.readLines? (s : Source) (lines : List (List Char)) :
    Option Source :=
  (lines.foldlM ReaderState.next? ⟨s, none⟩).bind ReaderState.closed?

theorem Reading.records?_lines (file : String) (ls : List (List Char)) :
    ∀ (number : Nat) (s : ReaderState) (log : Log),
      (lines file number s log ls).records? =
        ((ls.filter hasContent).foldlM ReaderState.next? s.unplaced).bind
          ReaderState.closed? := by
  induction ls with
  | nil =>
    intro number s log
    obtain ⟨source, openZone⟩ := s
    cases openZone <;> rfl
  | cons line rest ih =>
    intro number s log
    unfold lines
    dsimp only
    cases hcontent : hasContent line with
    | false =>
      obtain ⟨hfault, hstate⟩ :=
        ReaderState.readLine_of_not_hasContent hcontent s file number
      rw [List.filter_cons_of_neg (by rw [hcontent]; exact Bool.false_ne_true),
        hfault, ← hstate]
      exact ih _ _ _
    | true =>
      rw [List.filter_cons_of_pos hcontent, List.foldlM_cons,
        ReaderState.next?_unplaced hcontent s file number]
      cases (s.readLine file number line).fault with
      | some fault => rfl
      | none => exact ih _ _ _

/-- What texts give, apart from places and counts, is given by their lines
with content. -/
theorem Source.records?_readTexts (texts : List SourceText) :
    ∀ (s : Source) (log : Log), (s.readTexts log texts).records? =
      (texts.map SourceText.contentLines).foldlM readLines? s.unplaced := by
  induction texts with
  | nil => exact fun _ _ => rfl
  | cons t rest ih =>
    intro s log
    have hread : (s.readText t).records? =
        s.unplaced.readLines? t.contentLines :=
      Reading.records?_lines t.name _ 1 ⟨s, none⟩ []
    unfold readTexts
    dsimp only
    rw [List.map_cons, List.foldlM_cons, ← hread]
    cases hfault : (s.readText t).fault with
    | some fault =>
      have hnone : (s.readText t).records? = none := by
        rw [Reading.records?, hfault]
        rfl
      rw [hnone]
      rfl
    | none =>
      have hsome : (s.readText t).records? =
          some (s.readText t).source.unplaced := by
        rw [Reading.records?, hfault]
        rfl
      rw [hsome]
      exact ih _ _

end ZoneTables
