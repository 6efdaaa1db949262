import ZoneTables.Proofs.Source.Grammar

/-!
# Counts of what was read

Rules, zones, eras and links are counted as they are stored, and so the counts
are those of what is stored at every moment, also behind a fault.  A link whose
name was taken is stored over the old one and not counted, which leaves as many
links as before.  Lines are counted when they are begun and files when they were
read to the end.
-/

namespace ZoneTables

/-! ## Values in the lists of a map -/

def NameMap.total {α : Type} (m : NameMap (List α)) : Nat :=
  m.values.flatten.length

theorem NameMap.total_insert {α : Type} (m : NameMap (List α)) (name : String)
    (values : List α) :
    (m.insert name values).total = values.length + (m.erase name).total := by
  have hperm := (m.values_insert_perm name values).flatten
  rw [List.flatten_cons] at hperm
  exact hperm.length_eq.trans List.length_append

theorem NameMap.total_push {α : Type} (m : NameMap (List α))
    (p : String × α) : (m.push p).total = m.total + 1 := by
  have hpush : (m.push p).total =
      ((m.get? p.1).getD [] ++ [p.2]).length + (m.erase p.1).total :=
    m.total_insert p.1 _
  rw [hpush, List.length_append, List.length_singleton]
  cases hold : m.get? p.1 with
  | none =>
    rw [erase_eq_self hold, Option.getD_none, List.length_nil]
    omega
  | some values =>
    have htotal := m.total_insert p.1 values
    rw [insert_eq_self hold] at htotal
    rw [htotal, Option.getD_some]
    omega

/-! ## Storing one record -/

/-- Whether the counts of records are those of what is stored, and no zone is
without an era. -/
structure Source.IsCounted (s : Source) : Prop where
  rules : s.counts.rules = s.policies.total
  zones : s.counts.zones = s.zones.size
  eras : s.counts.eras = s.zones.total
  nonempty : ∀ name eras, s.zones.get? name = some eras → eras ≠ []
  links : s.counts.links = s.links.size

namespace Source.IsCounted

variable {s : Source}

theorem empty : Source.empty.IsCounted :=
  ⟨rfl, rfl, rfl, nofun, rfl⟩

theorem addRule (h : s.IsCounted) (policy : String) (r : SourceRule) :
    (s.addRule policy r).IsCounted where
  rules := by
    have hstored : (s.addRule policy r).policies.total = s.policies.total + 1 :=
      s.policies.total_push (policy, r)
    rw [hstored, ← h.rules]
    rfl
  zones := h.zones
  eras := h.eras
  nonempty := h.nonempty
  links := h.links

theorem total_addEra (s : Source) (zone : String) (era : SourceEra) :
    (s.addEra zone era).zones.total = s.zones.total + 1 :=
  s.zones.total_push (zone, era)

theorem nonempty_addEra (h : s.IsCounted) (zone : String) (era : SourceEra) :
    ∀ name eras, (s.addEra zone era).zones.get? name = some eras →
      eras ≠ [] := by
  intro name eras heras
  have hget : (s.addEra zone era).zones.get? name =
      if name = zone then some ((s.zones.get? zone).getD [] ++ [era])
      else s.zones.get? name := NameMap.get?_alter s.zones zone name _
  rw [hget] at heras
  split at heras
  · cases heras
    simp
  · exact h.nonempty name eras heras

theorem addEra (h : s.IsCounted) {zone : String}
    (hzone : s.zones.contains zone) (era : SourceEra) :
    (s.addEra zone era).IsCounted where
  rules := h.rules
  zones := by
    have hsize : (s.addEra zone era).zones.size = s.zones.size :=
      NameMap.size_insert_of_contains hzone _
    rw [hsize, ← h.zones]
    rfl
  eras := by
    rw [total_addEra, ← h.eras]
    rfl
  nonempty := h.nonempty_addEra zone era
  links := h.links

theorem addZone (h : s.IsCounted) {zone : String}
    (hnew : s.zones.contains zone = false) (era : SourceEra) :
    (s.addZone zone era).IsCounted where
  rules := h.rules
  zones := by
    have hsize : (s.addZone zone era).zones.size = s.zones.size + 1 :=
      NameMap.size_insert_of_new hnew _
    rw [hsize, ← h.zones]
    rfl
  eras := by
    have htotal : (s.addZone zone era).zones.total = s.zones.total + 1 :=
      total_addEra s zone era
    rw [htotal, ← h.eras]
    rfl
  nonempty := h.nonempty_addEra zone era
  links := h.links

theorem setLink_of_contains (h : s.IsCounted) {name : String}
    (hname : s.links.contains name) (target : String) :
    (s.setLink name target).IsCounted where
  rules := h.rules
  zones := h.zones
  eras := h.eras
  nonempty := h.nonempty
  links := h.links.trans (NameMap.size_insert_of_contains hname target).symm

theorem setLink_of_new (h : s.IsCounted) {name : String}
    (hname : s.links.contains name = false) (target : String) :
    (s.setLink name target).countLink.IsCounted where
  rules := h.rules
  zones := h.zones
  eras := h.eras
  nonempty := h.nonempty
  links := by
    have hsize : (s.setLink name target).countLink.links.size =
        s.links.size + 1 := NameMap.size_insert_of_new hname target
    rw [hsize, ← h.links]
    rfl

end Source.IsCounted

/-! ## Reading one line -/

namespace ReaderState

/-- What the content of a line can do: it has a fault and leaves all as it was,
it adds an era to the open zone, or it stores a record outside of a zone. -/
theorem readContent_cases (s : ReaderState) (origin : SourceLine)
    (content : List Char) :
    (∃ fault, s.readContent origin content = ⟨s, [], some fault⟩) ∨
      (∃ zone era, s.openZone = some zone ∧ s.readContent origin content =
        ⟨⟨s.source.addEra zone era, openAfter zone era⟩, [], none⟩) ∨
      ∃ record, record.isFree s.source.zones.contains ∧
        s.readContent origin content = addRecord origin s.source record := by
  unfold readContent
  dsimp only
  split
  · split
    · exact .inl ⟨_, rfl⟩
    · rename_i zone hopen
      split
      · exact .inl ⟨_, rfl⟩
      · exact .inr (.inl ⟨zone, _, hopen, rfl⟩)
  · split
    · exact .inl ⟨_, rfl⟩
    · split
      · exact .inl ⟨_, rfl⟩
      · rename_i record hrecord
        have hfree := (Record.says_iff.1 (Record.read_eq_ok_iff.1 hrecord)).2
        exact .inr (.inr ⟨record, hfree, rfl⟩)

structure IsCounted (s : ReaderState) : Prop where
  source : s.source.IsCounted
  stored : ∀ zone, s.openZone = some zone → s.source.zones.contains zone

theorem isCounted_closed {s : Source} (h : s.IsCounted) :
    IsCounted ⟨s, none⟩ where
  source := h
  stored := nofun

theorem contains_of_openAfter {s : Source} {zone name : String}
    {era : SourceEra} (h : openAfter zone era = some name) :
    (s.addEra zone era).zones.contains name := by
  obtain ⟨_, _, rfl⟩ := Option.map_eq_some_iff.1 h
  exact (NameMap.contains_insert zone _).2 (.inl rfl)

theorem isCounted_addRecord {origin : SourceLine} {s : Source}
    {record : Record} (h : s.IsCounted)
    (hfree : record.isFree s.zones.contains) :
    (addRecord origin s record).state.IsCounted := by
  cases record with
  | rule policy r => exact isCounted_closed (h.addRule policy r)
  | zone name era =>
    rw [Record.isFree, Bool.not_eq_true'] at hfree
    exact ⟨h.addZone hfree era, fun _ => contains_of_openAfter⟩
  | link target name =>
    unfold addRecord
    dsimp only
    split
    · rename_i htaken
      exact isCounted_closed (h.setLink_of_contains htaken target)
    · rename_i hnew
      exact isCounted_closed
        (h.setLink_of_new (Bool.eq_false_iff.2 hnew) target)
  | ignored keyword =>
    exact isCounted_closed ⟨h.rules, h.zones, h.eras, h.nonempty, h.links⟩

theorem isCounted_readContent {s : ReaderState} (h : s.IsCounted)
    (origin : SourceLine) (content : List Char) :
    (s.readContent origin content).state.IsCounted := by
  obtain ⟨fault, heq⟩ | ⟨zone, era, hopen, heq⟩ | ⟨record, hfree, heq⟩ :=
    s.readContent_cases origin content
  · rw [heq]
    exact h
  · rw [heq]
    exact ⟨h.source.addEra (h.stored zone hopen) era,
      fun _ => contains_of_openAfter⟩
  · rw [heq]
    exact isCounted_addRecord h.source hfree

theorem isCounted_readLine {s : ReaderState} (h : s.IsCounted) (file : String)
    (number : Nat) (line : List Char) :
    (s.readLine file number line).state.IsCounted := by
  have hcount : ReaderState.IsCounted { s with source := s.source.countLine } :=
    ⟨⟨h.source.rules, h.source.zones, h.source.eras, h.source.nonempty,
      h.source.links⟩, h.stored⟩
  unfold readLine
  dsimp only
  split
  · exact hcount
  · exact isCounted_readContent hcount _ _

theorem counts_readContent (s : ReaderState) (origin : SourceLine)
    (content : List Char) :
    (s.readContent origin content).state.source.counts.lines =
        s.source.counts.lines ∧
      (s.readContent origin content).state.source.counts.files =
        s.source.counts.files := by
  obtain ⟨fault, heq⟩ | ⟨zone, era, _, heq⟩ | ⟨record, _, heq⟩ :=
    s.readContent_cases origin content
  · rw [heq]
    exact ⟨rfl, rfl⟩
  · rw [heq]
    exact ⟨rfl, rfl⟩
  · rw [heq]
    cases record with
    | link target name =>
      unfold addRecord
      dsimp only
      split <;> exact ⟨rfl, rfl⟩
    | rule policy r => exact ⟨rfl, rfl⟩
    | zone name era => exact ⟨rfl, rfl⟩
    | ignored keyword => exact ⟨rfl, rfl⟩

theorem counts_readLine (s : ReaderState) (file : String) (number : Nat)
    (line : List Char) :
    (s.readLine file number line).state.source.counts.lines =
        s.source.counts.lines + 1 ∧
      (s.readLine file number line).state.source.counts.files =
        s.source.counts.files := by
  unfold readLine
  dsimp only
  split
  · exact ⟨rfl, rfl⟩
  · exact counts_readContent { s with source := s.source.countLine } _ _

end ReaderState

/-! ## Reading a text -/

theorem Reading.isCounted_lines (file : String) (ls : List (List Char)) :
    ∀ {number : Nat} {s : ReaderState} {log : Log}, s.IsCounted →
      (lines file number s log ls).source.IsCounted := by
  induction ls with
  | nil =>
    intro number s log h
    unfold lines
    split
    · exact h.source
    · exact ⟨h.source.rules, h.source.zones, h.source.eras, h.source.nonempty,
        h.source.links⟩
  | cons line rest ih =>
    intro number s log h
    have hline := ReaderState.isCounted_readLine h file number line
    unfold lines
    dsimp only
    split
    · exact hline.source
    · exact ih hline

def Reading.lastLine (r : Reading) (ls : List (List Char)) : Nat :=
  match r.fault with
  | none => ls.length
  | some fault => fault.line

/-- All lines up to the one at which reading stops are counted, and the file if
there is no fault. -/
theorem Reading.counts_lines (file : String) (ls : List (List Char)) :
    ∀ (front : List (List Char)) (s : ReaderState) (log : Log),
      let r := lines file (front.length + 1) s log ls
      r.source.counts.lines + front.length =
          s.source.counts.lines + r.lastLine (front ++ ls) ∧
        r.source.counts.files =
          s.source.counts.files + if r.fault.isNone then 1 else 0 := by
  induction ls with
  | nil =>
    intro front s log
    unfold lines lastLine
    cases s.openZone with
    | some zone => simp
    | none => simp [Source.countFile]
  | cons line rest ih =>
    intro front s log
    obtain ⟨hlines, hfiles⟩ := s.counts_readLine file (front.length + 1) line
    unfold lines
    dsimp only
    cases hfault : (s.readLine file (front.length + 1) line).fault with
    | some fault =>
      unfold lastLine
      simp [hlines, hfiles]
      omega
    | none =>
      have hrest := ih (front ++ [line])
        (s.readLine file (front.length + 1) line).state
        (log ++ (s.readLine file (front.length + 1) line).log)
      simp only [List.length_append, List.length_singleton, List.append_assoc,
        List.singleton_append, hlines, hfiles] at hrest
      refine ⟨?_, hrest.2⟩
      have := hrest.1
      dsimp only at this ⊢
      omega

namespace Source

theorem IsCounted.readText {s : Source} (h : s.IsCounted) (t : SourceText) :
    (s.readText t).source.IsCounted :=
  Reading.isCounted_lines t.name _ (ReaderState.isCounted_closed h)

theorem counts_readText (s : Source) (t : SourceText) :
    (s.readText t).source.counts.lines =
        s.counts.lines + (s.readText t).lastLine t.lines ∧
      (s.readText t).source.counts.files =
        s.counts.files + if (s.readText t).fault.isNone then 1 else 0 :=
  Reading.counts_lines t.name t.lines [] ⟨s, none⟩ []

/-! ## Reading texts whatever comes of them -/

/-- What reading each of some texts gives.  Behind a fault the next text is read
all the same, and what was stored until then stays. -/
def readings (s : Source) : List SourceText → List Reading
  | [] => []
  | t :: rest => s.readText t :: (s.readText t).source.readings rest

def after (s : Source) (texts : List SourceText) : Source :=
  texts.foldl (fun s t => (s.readText t).source) s

theorem IsCounted.after (texts : List SourceText) :
    ∀ {s : Source}, s.IsCounted → (s.after texts).IsCounted := by
  induction texts with
  | nil => exact fun h => h
  | cons t rest ih => exact fun h => ih (h.readText t)

theorem files_after (texts : List SourceText) :
    ∀ s : Source, (s.after texts).counts.files =
      s.counts.files + (s.readings texts).countP (·.fault.isNone) := by
  induction texts with
  | nil => exact fun _ => rfl
  | cons t rest ih =>
    intro s
    have hrest := ih (s.readText t).source
    rw [(s.counts_readText t).2] at hrest
    rw [readings, List.countP_cons]
    refine Eq.trans hrest ?_
    omega

/-- Behind any texts, with faults or without, the counts of records are those of
what is stored, that of files is the number of texts without a fault, and the
next text counts the lines up to its fault, or all of them. -/
theorem counts_after (texts : List SourceText) :
    (empty.after texts).IsCounted ∧
    (empty.after texts).counts.files =
      (empty.readings texts).countP (·.fault.isNone) ∧
    ∀ t : SourceText, ((empty.after texts).readText t).source.counts.lines =
      (empty.after texts).counts.lines +
        match ((empty.after texts).readText t).fault with
        | none => t.lines.length
        | some fault => fault.line := by
  refine ⟨IsCounted.empty.after texts, ?_, fun t => ?_⟩
  · rw [files_after]
    exact Nat.zero_add _
  · exact ((empty.after texts).counts_readText t).1

/-- Two links of one name, a zone that goes on at the end of its text, and a
text without a fault. -/
example : (empty.after
    [⟨"a", "L Z X\nL Y X\nL Z Y\n"⟩, ⟨"b", "Z Z 0 - G 2000\n\n"⟩,
      ⟨"c", "R P 1990 o - Apr 1 0 1 D\n"⟩]).counts =
    { files := 1, lines := 5, rules := 1, zones := 1, eras := 1, links := 1,
      ignored := 0 } := by
  decide +kernel

end Source

end ZoneTables
