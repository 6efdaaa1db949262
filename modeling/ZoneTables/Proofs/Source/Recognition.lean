import ZoneTables.Proofs.Source.Grammar

/-!
# Reading recognises the grammar

Reading is a run of one step for each line with content.  By induction on the
lines, a run that ends outside of a zone has followed a split of the lines, and
one that ends inside of a zone can be brought to an end by one line more.  So the
run stops at the first line with which the lines cannot go on.
-/

namespace ZoneTables

/-! ## Steps -/

namespace ReaderState

def step? (s : ReaderState) (l : PlacedLine) : Option ReaderState :=
  (s.readContent l.origin l.content).next?

def run? (s : ReaderState) (lines : List PlacedLine) : Option ReaderState :=
  lines.foldlM step? s

theorem run?_cons (s : ReaderState) (l : PlacedLine)
    (lines : List PlacedLine) :
    s.run? (l :: lines) = (s.step? l).bind fun t => t.run? lines :=
  List.foldlM_cons

theorem run?_append (s : ReaderState) (lines others : List PlacedLine) :
    s.run? (lines ++ others) = (s.run? lines).bind fun t => t.run? others :=
  List.foldlM_append

theorem step?_uncounted (s : ReaderState) (l : PlacedLine) :
    s.uncounted.step? l = s.step? l := by
  obtain ⟨source, openZone⟩ := s
  have hrecord : ∀ record, (addRecord l.origin source.uncounted record).next? =
      (addRecord l.origin source record).next? := by
    intro record
    cases record with
    | link target name =>
      rw [Source.addRecord_link, Source.addRecord_link]
      rfl
    | rule policy r => rfl
    | zone name era => rfl
    | ignored keyword => rfl
  unfold step?
  rw [next?_readContent, next?_readContent]
  dsimp only [uncounted]
  simp only [hrecord]
  rfl

theorem step?_closed {s : Source} {l : PlacedLine} {t : ReaderState} :
    step? ⟨s, none⟩ l = some t ↔ l.isIndented = false ∧
      ∃ record, Record.Says s.zones.contains l.origin l.words record ∧
        (addRecord l.origin s record).next? = some t := by
  unfold step?
  rw [next?_readContent]
  change (if l.isIndented then none else _) = some t ↔ _
  cases l.isIndented with
  | true => exact ⟨nofun, fun h => absurd h.1 (by decide)⟩
  | false =>
    rw [if_neg Bool.false_ne_true]
    dsimp only [Option.isSome_none]
    rw [if_neg Bool.false_ne_true, Option.bind_eq_some_iff]
    simp only [except_toOption_eq_some, Record.read_eq_ok_iff, true_and]
    rfl

theorem step?_open {s : Source} {zone : String} {l : PlacedLine}
    {t : ReaderState} :
    step? ⟨s, some zone⟩ l = some t ↔ l.isIndented ∧
      ∃ era, SourceEra.Says l.origin l.words era ∧
        t = ⟨(s.addEra zone era).uncounted, openAfter zone era⟩ := by
  unfold step?
  rw [next?_readContent]
  change (if l.isIndented then _ else none) = some t ↔ _
  cases l.isIndented with
  | false => exact ⟨nofun, fun h => absurd h.1 (by decide)⟩
  | true =>
    rw [if_pos rfl, Option.bind_some, Option.map_eq_some_iff]
    simp only [except_toOption_eq_some, SourceEra.read_eq_ok_iff, true_and]
    exact exists_congr fun era => and_congr_right fun _ => eq_comm

end ReaderState

/-! ## Runs -/

/-- Whether lines are read as the grammar says: outside of a zone, and behind an
era that was read last of a zone. -/
structure ReadsAsSaid (lines : List PlacedLine) : Prop where
  closed : ∀ s t : Source,
    ((ReaderState.run? ⟨s, none⟩ lines).bind ReaderState.closed? = some t ↔
      ∃ entries, Splits lines entries ∧
        entries.foldlM Source.extend? s = some t)
  opened : ∀ (s t : Source) (name : String) (front : List SourceEra)
    (era : SourceEra),
    ((ReaderState.run? ⟨s.putZone name (front ++ [era]),
        ReaderState.openAfter name era⟩ lines).bind ReaderState.closed? =
          some t ↔
      ∃ eras entries, Continues era lines eras entries ∧
        entries.foldlM Source.extend?
          (s.putZone name (front ++ era :: eras)) = some t)

/-- It is enough to know what is read outside of a zone, and inside of one behind
the next line: an era without an end closes its zone, and any other one needs a
line that continues it. -/
theorem ReadsAsSaid.of_closed {lines : List PlacedLine}
    (hclosed : ∀ s t : Source,
      ((ReaderState.run? ⟨s, none⟩ lines).bind ReaderState.closed? = some t ↔
        ∃ entries, Splits lines entries ∧
          entries.foldlM Source.extend? s = some t))
    (htail : ∀ l rest, lines = l :: rest → ReadsAsSaid rest) :
    ReadsAsSaid lines := by
  refine ⟨hclosed, fun s t name front era => ?_⟩
  unfold ReaderState.openAfter
  cases hends : era.ends with
  | none =>
    rw [Option.map_none, hclosed]
    constructor
    · rintro ⟨entries, hsplits, hadd⟩
      exact ⟨[], entries, (continues_of_none hends).2 ⟨rfl, hsplits⟩, hadd⟩
    · rintro ⟨eras, entries, hcontinues, hadd⟩
      obtain ⟨rfl, hsplits⟩ := (continues_of_none hends).1 hcontinues
      exact ⟨entries, hsplits, hadd⟩
  | some u =>
    have hsome : era.ends.isSome := by rw [hends]; rfl
    simp only [Option.map_some, continues_of_isSome hsome]
    cases lines with
    | nil =>
      refine ⟨nofun, ?_⟩
      rintro ⟨_, _, ⟨_, _, _, _, heq, _⟩, _⟩
      cases heq
    | cons l rest =>
      have hopened := (htail l rest rfl).opened s t name (front ++ [era])
      simp only [List.append_assoc, List.singleton_append] at hopened
      rw [ReaderState.run?_cons, Option.bind_assoc, Option.bind_eq_some_iff]
      simp only [ReaderState.step?_open, Source.addEra_putZone]
      constructor
      · rintro ⟨_, ⟨hl, next, hnext, rfl⟩, hrun⟩
        rw [List.append_assoc, List.singleton_append] at hrun
        obtain ⟨eras, entries, hcontinues, hadd⟩ := (hopened next).1 hrun
        exact ⟨next :: eras, entries,
          ⟨l, rest, next, eras, rfl, rfl, hl, hnext, hcontinues⟩, hadd⟩
      · rintro ⟨_, entries, ⟨_, _, next, eras, heq, rfl, hl, hnext,
          hcontinues⟩, hadd⟩
        cases heq
        refine ⟨_, ⟨hl, next, hnext, rfl⟩, ?_⟩
        rw [List.append_assoc, List.singleton_append]
        exact (hopened next).2 ⟨eras, entries, hcontinues, hadd⟩

theorem ReadsAsSaid.leads_iff {lines : List PlacedLine} (h : ReadsAsSaid lines)
    (origin : SourceLine) {s t : Source} {record : Record} :
    record.isFree s.zones.contains ∧
        (∃ u, (ReaderState.addRecord origin s record).next? = some u ∧
          (u.run? lines).bind ReaderState.closed? = some t) ↔
      ∃ entries, record.Leads lines entries ∧
        entries.foldlM Source.extend? s = some t := by
  cases record with
  | rule policy r =>
    constructor
    · rintro ⟨_, u, hu, hrun⟩
      cases hu
      obtain ⟨entries, hsplits, hadd⟩ := (h.closed _ t).1 hrun
      exact ⟨_, ⟨entries, rfl, hsplits⟩, hadd⟩
    · rintro ⟨_, ⟨entries, rfl, hsplits⟩, hadd⟩
      exact ⟨rfl, _, rfl, (h.closed _ t).2 ⟨entries, hsplits, hadd⟩⟩
  | zone name era =>
    have hnext : ∀ hnew : s.zones.contains name = false,
        (ReaderState.addRecord origin s (.zone name era)).next? =
          some ⟨s.putZone name ([] ++ [era]), ReaderState.openAfter name era⟩ :=
      fun hnew => by
        rw [List.nil_append, ← Source.addZone_uncounted hnew]
        rfl
    constructor
    · rintro ⟨hfree, u, hu, hrun⟩
      rw [Record.isFree, Bool.not_eq_true'] at hfree
      rw [hnext hfree] at hu
      cases hu
      obtain ⟨eras, entries, hcontinues, hadd⟩ :=
        (h.opened s t name [] era).1 hrun
      refine ⟨_, ⟨eras, entries, rfl, hcontinues⟩, ?_⟩
      rw [List.foldlM_cons, Source.extend?, hfree]
      exact hadd
    · rintro ⟨_, ⟨eras, entries, rfl, hcontinues⟩, hadd⟩
      rw [List.foldlM_cons, Source.extend?] at hadd
      cases hfree : s.zones.contains name with
      | true =>
        rw [hfree] at hadd
        cases hadd
      | false =>
        rw [hfree] at hadd
        refine ⟨by rw [Record.isFree, hfree]; rfl, _, hnext hfree, ?_⟩
        exact (h.opened s t name [] era).2 ⟨eras, entries, hcontinues, hadd⟩
  | link target name =>
    rw [Source.addRecord_link]
    constructor
    · rintro ⟨_, u, hu, hrun⟩
      obtain ⟨s', hs', rfl⟩ := Option.map_eq_some_iff.1 hu
      obtain ⟨entries, hsplits, hadd⟩ := (h.closed s' t).1 hrun
      refine ⟨_, ⟨entries, rfl, hsplits⟩, ?_⟩
      rw [List.foldlM_cons, hs']
      exact hadd
    · rintro ⟨_, ⟨entries, rfl, hsplits⟩, hadd⟩
      rw [List.foldlM_cons] at hadd
      obtain ⟨s', hs', hadd⟩ := Option.bind_eq_some_iff.1 hadd
      exact ⟨rfl, _, by rw [hs']; rfl,
        (h.closed s' t).2 ⟨entries, hsplits, hadd⟩⟩
  | ignored keyword =>
    constructor
    · rintro ⟨_, u, hu, hrun⟩
      cases hu
      obtain ⟨entries, hsplits, hadd⟩ := (h.closed _ t).1 hrun
      exact ⟨_, ⟨entries, rfl, hsplits⟩, hadd⟩
    · rintro ⟨_, ⟨entries, rfl, hsplits⟩, hadd⟩
      exact ⟨rfl, _, rfl, (h.closed _ t).2 ⟨entries, hsplits, hadd⟩⟩

theorem readsAsSaid (lines : List PlacedLine) : ReadsAsSaid lines := by
  -- behind an era without an end the same lines are read outside of its zone,
  -- so both halves go through the lines together
  induction lines with
  | nil =>
    refine .of_closed (fun s t => ?_) nofun
    simp only [splits_nil_iff, exists_eq_left]
    rfl
  | cons l rest ih =>
    refine .of_closed (fun s t => ?_) fun _ _ heq => ?_
    · rw [ReaderState.run?_cons, Option.bind_assoc, Option.bind_eq_some_iff]
      simp only [ReaderState.step?_closed, splits_cons_iff]
      constructor
      · rintro ⟨u, ⟨hstart, record, hsaid, hu⟩, hrun⟩
        obtain ⟨hsaid, hfree⟩ := Record.says_iff.1 hsaid
        obtain ⟨entries, hleads, hadd⟩ :=
          (ih.leads_iff l.origin).1 ⟨hfree, u, hu, hrun⟩
        exact ⟨entries, ⟨hstart, record, hsaid, hleads⟩, hadd⟩
      · rintro ⟨entries, ⟨hstart, record, hsaid, hleads⟩, hadd⟩
        obtain ⟨hfree, u, hu, hrun⟩ :=
          (ih.leads_iff l.origin).2 ⟨entries, hleads, hadd⟩
        exact ⟨u, ⟨hstart, record, Record.says_iff.2 ⟨hsaid, hfree⟩, hu⟩,
          hrun⟩
    · cases heq
      exact ih

/-! ## Entries that can be added -/

namespace NameMap

variable {α : Type}

theorem exists_foldlM_putNew? (ps : List (String × α)) :
    ∀ {m : NameMap α}, m.IsNew (ps.map Prod.fst) →
      ∃ n, ps.foldlM putNew? m = some n := by
  induction ps with
  | nil => exact fun _ => ⟨_, rfl⟩
  | cons p rest ih =>
    rintro m ⟨hnodup, hnew⟩
    rw [List.map_cons, List.nodup_cons] at hnodup
    rw [List.map_cons, List.forall_mem_cons] at hnew
    rw [List.foldlM_cons, putNew?, hnew.1]
    refine ih ⟨hnodup.2, fun name hname => ?_⟩
    rw [Bool.eq_false_iff]
    intro hcontains
    rcases (contains_insert p.1 p.2).1 hcontains with rfl | hold
    · exact hnodup.1 hname
    · rw [hnew.2 name hname] at hold
      cases hold

theorem foldlM_putNew?_eq_some (ps : List (String × α)) :
    ∀ {m n : NameMap α}, ps.foldlM putNew? m = some n →
      m.IsNew (ps.map Prod.fst) ∧ ∀ name a, n.get? name = some a ↔
        m.get? name = some a ∨ (name, a) ∈ ps := by
  induction ps with
  | nil =>
    intro m n h
    cases h
    exact ⟨⟨.nil, nofun⟩, fun _ _ => by simp⟩
  | cons p rest ih =>
    intro m n h
    rw [List.foldlM_cons] at h
    obtain ⟨m', hput, h⟩ := Option.bind_eq_some_iff.1 h
    unfold putNew? at hput
    cases hp : m.contains p.1 with
    | true =>
      rw [hp] at hput
      cases hput
    | false =>
      rw [hp] at hput
      cases hput
      obtain ⟨⟨hnodup, hnew⟩, hget⟩ := ih h
      have hfresh : ∀ name ∈ rest.map Prod.fst,
          name ≠ p.1 ∧ m.contains name = false := by
        intro name hname
        have hnot := Bool.eq_false_iff.1 (hnew name hname)
        rw [ne_eq, contains_insert, not_or, Bool.not_eq_true] at hnot
        exact hnot
      refine ⟨⟨?_, ?_⟩, fun name a => ?_⟩
      · rw [List.map_cons, List.nodup_cons]
        exact ⟨fun hmem => (hfresh _ hmem).1 rfl, hnodup⟩
      · rw [List.map_cons, List.forall_mem_cons]
        exact ⟨hp, fun name hname => (hfresh name hname).2⟩
      · have hnone : m.get? p.1 = none := by
          rwa [contains, Option.isSome_eq_false_iff,
            Option.isNone_iff_eq_none] at hp
        obtain ⟨key, value⟩ := p
        rw [hget, get?_insert, List.mem_cons]
        by_cases hname : name = key
        · subst hname
          rw [if_pos rfl, hnone]
          simp [eq_comm]
        · rw [if_neg hname]
          simp [hname]

theorem getD_foldl_push (name : String) (ps : List (String × α)) :
    ∀ m : NameMap (List α), ((ps.foldl push m).get? name).getD [] =
      (m.get? name).getD [] ++
        (ps.filter fun p => p.1 == name).map Prod.snd := by
  induction ps with
  | nil => exact fun m => (List.append_nil _).symm
  | cons p rest ih =>
    intro m
    rw [List.foldl_cons, ih, push, get?_alter]
    by_cases hname : p.1 = name
    · subst hname
      simp
    · simp [hname, Ne.symm hname]

theorem contains_foldl_push (name : String) (ps : List (String × α)) :
    ∀ m : NameMap (List α), (ps.foldl push m).contains name ↔
      m.contains name ∨ (ps.filter fun p => p.1 == name).map Prod.snd ≠ [] := by
  induction ps with
  | nil => exact fun m => by simp
  | cons p rest ih =>
    intro m
    rw [List.foldl_cons, ih, push, alter, contains_insert]
    by_cases hname : p.1 = name
    · simp [hname]
    · simp [hname, Ne.symm hname]

end NameMap

namespace Source

variable {s t : Source} {lines : List PlacedLine} {entries : List Entry}

theorem mem_entries_zones {name : String} {eras : List SourceEra} :
    (name, eras) ∈ Entry.zones entries ↔ .zone name eras ∈ entries := by
  unfold Entry.zones
  rw [List.mem_filterMap]
  constructor
  · rintro ⟨e, he, heq⟩
    cases e <;> cases heq
    exact he
  · exact fun h => ⟨_, h, rfl⟩

theorem mem_entries_links {name target : String} :
    (name, target) ∈ Entry.links entries ↔ .link target name ∈ entries := by
  unfold Entry.links
  rw [List.mem_filterMap]
  constructor
  · rintro ⟨e, he, heq⟩
    cases e <;> cases heq
    exact he
  · exact fun h => ⟨_, h, rfl⟩

theorem extends_of_foldlM (h : entries.foldlM extend? s = some t) :
    s.zones.IsNew ((Entry.zones entries).map Prod.fst) ∧
      s.links.IsNew ((Entry.links entries).map Prod.fst) ∧
      s.Extends entries t := by
  have hfold := foldlM_extend? entries s
  rw [h, Option.map_some, eq_comm, Option.bind_eq_some_iff] at hfold
  obtain ⟨zones, hzones, hfold⟩ := hfold
  obtain ⟨links, hlinks, heq⟩ := Option.map_eq_some_iff.1 hfold
  obtain ⟨hnewZones, hgetZones⟩ := NameMap.foldlM_putNew?_eq_some _ hzones
  obtain ⟨hnewLinks, hgetLinks⟩ := NameMap.foldlM_putNew?_eq_some _ hlinks
  -- the maps of the source are those without its counts
  have hextends : s.Extends entries t.uncounted := by
    rw [← heq]
    exact ⟨fun policy => NameMap.getD_foldl_push policy _ _,
      fun policy => NameMap.contains_foldl_push policy _ _,
      fun name eras => (hgetZones name eras).trans
        (or_congr_right mem_entries_zones),
      fun name target => (hgetLinks name target).trans
        (or_congr_right mem_entries_links)⟩
  exact ⟨hnewZones, hnewLinks, hextends.rules, hextends.policies,
    hextends.zones, hextends.links⟩

theorem exists_foldlM_extend?
    (hzones : s.zones.IsNew ((Entry.zones entries).map Prod.fst))
    (hlinks : s.links.IsNew ((Entry.links entries).map Prod.fst)) :
    ∃ t, entries.foldlM extend? s = some t := by
  obtain ⟨zones, hzones⟩ := NameMap.exists_foldlM_putNew? _ hzones
  obtain ⟨links, hlinks⟩ := NameMap.exists_foldlM_putNew? _ hlinks
  have hfold := foldlM_extend? entries s
  unfold Entry.zones at hzones
  unfold Entry.links at hlinks
  rw [hzones, Option.bind_some, hlinks, Option.map_some] at hfold
  obtain ⟨t, ht, _⟩ := Option.map_eq_some_iff.1 hfold
  exact ⟨t, ht⟩

theorem accepts_iff : s.Accepts lines entries ↔ Splits lines entries ∧
    ∃ t, entries.foldlM extend? s.uncounted = some t := by
  constructor
  · rintro ⟨hsplits, hzones, hlinks⟩
    exact ⟨hsplits, exists_foldlM_extend? (s := s.uncounted) hzones hlinks⟩
  · rintro ⟨hsplits, t, ht⟩
    obtain ⟨hzones, hlinks, _⟩ := extends_of_foldlM ht
    exact ⟨hsplits, hzones, hlinks⟩

end Source

/-! ## Runs over the lines of a file -/

theorem placedLines_cons (file : String) (number : Nat) (line : List Char)
    (ls : List (List Char)) :
    placedLines file number (line :: ls) =
      placedLines file number [line] ++ placedLines file (number + 1) ls := by
  unfold placedLines
  rw [List.zipIdx_cons, List.zipIdx_cons, List.zipIdx_nil, List.filter_cons,
    List.filter_cons]
  cases hasContent line <;> rfl

theorem placedLines_append (file : String) (front ls : List (List Char)) :
    ∀ number : Nat, placedLines file number (front ++ ls) =
      placedLines file number front ++
        placedLines file (number + front.length) ls := by
  intro number
  unfold placedLines
  rw [List.zipIdx_append, List.filter_append, List.map_append]

theorem ReaderState.next?_readLine (s : ReaderState) (file : String)
    (number : Nat) (line : List Char) :
    (s.readLine file number line).next? =
      s.uncounted.run? (placedLines file number [line]) := by
  unfold readLine placedLines
  dsimp only
  rw [List.zipIdx_cons, List.zipIdx_nil]
  cases hcontent : hasContent line with
  | false =>
    have hempty : (lineContent line).isEmpty := by
      rwa [hasContent, Bool.not_eq_false'] at hcontent
    rw [if_pos hempty, List.filter_cons_of_neg (by simp [hcontent])]
    rfl
  | true =>
    have hfull : (lineContent line).isEmpty = false := by
      rwa [hasContent, Bool.not_eq_true'] at hcontent
    let counted : ReaderState := { s with source := s.source.countLine }
    have hcounted : counted.step? (.ofLine file number line) =
        s.uncounted.step? (.ofLine file number line) := by
      rw [← step?_uncounted counted]
      rfl
    rw [hfull, if_neg Bool.false_ne_true,
      List.filter_cons_of_pos (by simp [hcontent]), List.filter_nil,
      List.map_singleton, run?_cons, ← hcounted]
    exact (Option.bind_fun_some _).symm

namespace Reading

def stored? (r : Reading) : Option Source :=
  if r.fault.isNone then some r.source.uncounted else none

theorem stored?_eq_some {r : Reading} {t : Source} :
    r.stored? = some t ↔ r.fault = none ∧ r.source.uncounted = t := by
  unfold stored?
  cases r.fault with
  | none => exact ⟨fun h => ⟨rfl, Option.some.inj h⟩, fun h => congrArg some h.2⟩
  | some fault => exact ⟨nofun, fun h => nomatch h.1⟩

theorem stored?_lines (file : String) (ls : List (List Char)) :
    ∀ (number : Nat) (s : ReaderState) (log : Log),
      (lines file number s log ls).stored? =
        (s.uncounted.run? (placedLines file number ls)).bind
          ReaderState.closed? := by
  induction ls with
  | nil =>
    intro number s log
    obtain ⟨source, openZone⟩ := s
    cases openZone <;> rfl
  | cons line rest ih =>
    intro number s log
    rw [placedLines_cons, ReaderState.run?_append,
      ← ReaderState.next?_readLine]
    unfold lines LineOutcome.next?
    dsimp only
    cases (s.readLine file number line).fault with
    | some fault => rfl
    | none => exact ih _ _ _

/-- A fault stands on the first line over which there is no run, or behind a run
over all lines. -/
theorem fault_lines (file : String) (ls : List (List Char)) :
    ∀ {number : Nat} {s : ReaderState} {log : Log} {fault : SourceError},
      (lines file number s log ls).fault = some fault →
      fault.file = file ∧
        ((∃ front line back, ls = front ++ line :: back ∧
          fault.line = number + front.length ∧
          (s.uncounted.run? (placedLines file number front)).isSome ∧
          s.uncounted.run? (placedLines file number (front ++ [line])) =
            none) ∨
        ((s.uncounted.run? (placedLines file number ls)).isSome ∧
          fault.line = number + ls.length - 1)) := by
  induction ls with
  | nil =>
    intro number s log fault h
    unfold lines at h
    split at h
    · cases h
      exact ⟨rfl, .inr ⟨rfl, rfl⟩⟩
    · cases h
  | cons line rest ih =>
    intro number s log fault h
    have hline := s.next?_readLine file number line
    -- a run from this line on is a step and a run over what is behind
    have hrun : ∀ others, s.uncounted.run?
        (placedLines file number (line :: others)) =
          (s.readLine file number line).next?.bind fun t =>
            t.run? (placedLines file (number + 1) others) := by
      intro others
      rw [placedLines_cons, ReaderState.run?_append, ← hline]
    unfold lines at h
    unfold LineOutcome.next? at hrun
    dsimp only at h
    cases hfault : (s.readLine file number line).fault with
    | some found =>
      rw [hfault] at h
      cases h
      refine ⟨rfl, .inl ⟨[], line, rest, rfl, rfl, rfl, ?_⟩⟩
      rw [List.nil_append, hrun, hfault]
      rfl
    | none =>
      rw [hfault] at h
      simp only [hfault, Option.isNone_none, if_true, Option.bind_some] at hrun
      obtain ⟨hfile, hplace⟩ := ih h
      refine ⟨hfile, ?_⟩
      rcases hplace with ⟨front, bad, back, rfl, hat, hfront, hbad⟩ | ⟨hall, hat⟩
      · refine .inl ⟨line :: front, bad, back, rfl, ?_, ?_, ?_⟩
        · rw [hat, List.length_cons]
          omega
        · rwa [hrun]
        · rwa [List.cons_append, hrun]
      · refine .inr ⟨?_, ?_⟩
        · rwa [hrun]
        · rw [hat, List.length_cons]
          omega

end Reading

/-! ## Files -/

def closingLine : List Char := " 0 - X".toList

theorem isSome_run?_closingLine (s : Source) (zone file : String)
    (number : Nat) :
    ((ReaderState.run? ⟨s, some zone⟩
      (placedLines file number [closingLine])).bind
        ReaderState.closed?).isSome := by
  let origin := (PlacedLine.ofLine file number closingLine).origin
  have hcontent : hasContent closingLine := by decide
  have hindented : (PlacedLine.ofLine file number closingLine).isIndented := by
    show (lineContent closingLine).head?.any Text.isBlank
    decide
  have hplaced : placedLines file number [closingLine] =
      [.ofLine file number closingLine] := by
    unfold placedLines
    rw [List.zipIdx_cons, List.zipIdx_nil,
      List.filter_cons_of_pos (by exact hcontent)]
    rfl
  have hwords : (PlacedLine.ofLine file number closingLine).words =
      ["0", "-", "X"] := by
    show (Text.words (lineContent closingLine)).map String.ofList = _
    decide
  have hsaid : SourceEra.Says origin
      (PlacedLine.ofLine file number closingLine).words
      ⟨0, "-", "X", none, origin⟩ := by
    rw [hwords]
    exact .fields (by decide) .none
  have hstep : ReaderState.step? ⟨s, some zone⟩
      (.ofLine file number closingLine) = some ⟨_, none⟩ :=
    ReaderState.step?_open.2 ⟨hindented, _, hsaid, rfl⟩
  rw [hplaced, ReaderState.run?_cons, hstep]
  rfl

namespace Source

variable {s : Source} {file : String} {ls : List (List Char)}

theorem isGrammatical_iff : s.IsGrammatical file ls ↔
    ((ReaderState.run? ⟨s.uncounted, none⟩ (placedLines file 1 ls)).bind
      ReaderState.closed?).isSome := by
  rw [Option.isSome_iff_exists]
  simp only [IsGrammatical, accepts_iff, (readsAsSaid _).closed]
  constructor
  · rintro ⟨entries, hsplits, t, ht⟩
    exact ⟨t, entries, hsplits, ht⟩
  · rintro ⟨t, entries, hsplits, ht⟩
    exact ⟨entries, hsplits, t, ht⟩

/-- Lines can go on if they were run over: outside of a zone they are of the
grammar, and inside of one a line is missing. -/
theorem isContinuable_iff : s.IsContinuable file ls ↔
    (ReaderState.run? ⟨s.uncounted, none⟩ (placedLines file 1 ls)).isSome := by
  unfold IsContinuable
  simp only [isGrammatical_iff, placedLines_append, ReaderState.run?_append]
  cases hrun : ReaderState.run? ⟨s.uncounted, none⟩ (placedLines file 1 ls) with
  | none => simp
  | some t =>
    refine ⟨fun _ => rfl, fun _ => ?_⟩
    obtain ⟨source, openZone⟩ := t
    cases openZone with
    | none => exact ⟨[], rfl⟩
    | some zone =>
      exact ⟨[closingLine], isSome_run?_closingLine source zone file _⟩

theorem stored?_readText (s : Source) (t : SourceText) :
    (s.readText t).stored? =
      (ReaderState.run? ⟨s.uncounted, none⟩ (placedLines t.name 1 t.lines)).bind
        ReaderState.closed? :=
  Reading.stored?_lines t.name _ 1 ⟨s, none⟩ []

/-- A text is read without a fault exactly if it is of the grammar and its zones
and links are new, and then its records are added behind the old ones.  A fault
stands where the text breaks the grammar. -/
theorem readText_recognises (s : Source) (t : SourceText) :
    ((s.readText t).fault = none ↔ s.IsGrammatical t.name t.lines) ∧
    (∀ entries, s.Accepts (placedLines t.name 1 t.lines) entries →
      s.Extends entries (s.readText t).source) ∧
    (∀ fault, (s.readText t).fault = some fault →
      fault.file = t.name ∧ s.BreaksAt t.name t.lines fault.line) := by
  have hstored := s.stored?_readText t
  have hgrammar : (s.readText t).fault = none ↔
      s.IsGrammatical t.name t.lines := by
    rw [isGrammatical_iff, ← hstored]
    unfold Reading.stored?
    cases (s.readText t).fault <;> simp
  refine ⟨hgrammar, fun entries haccepts => ?_, fun fault hfault => ?_⟩
  · obtain ⟨hsplits, u, hu⟩ := accepts_iff.1 haccepts
    have hrun := ((readsAsSaid _).closed _ u).2 ⟨entries, hsplits, hu⟩
    rw [← hstored, Reading.stored?_eq_some] at hrun
    obtain ⟨_, rfl⟩ := hrun
    obtain ⟨_, _, hextends⟩ := extends_of_foldlM hu
    exact ⟨hextends.rules, hextends.policies, hextends.zones, hextends.links⟩
  · obtain ⟨hfile, hplace⟩ := Reading.fault_lines t.name t.lines hfault
    refine ⟨hfile, ?_⟩
    rcases hplace with ⟨front, line, back, hls, hat, hfront, hline⟩ | ⟨hall, hat⟩
    · rw [hls, hat, Nat.add_comm]
      refine .line (isContinuable_iff.2 hfront) fun hgoing => ?_
      rw [isContinuable_iff] at hgoing
      have hnone : ReaderState.run? ⟨s.uncounted, none⟩
          (placedLines t.name 1 (front ++ [line])) = none := hline
      rw [hnone] at hgoing
      cases hgoing
    · rw [hat, Nat.add_sub_cancel_left]
      refine .stop (isContinuable_iff.2 hall) fun hgrammatical => ?_
      rw [hgrammar.2 hgrammatical] at hfault
      cases hfault

end Source

def mixedText : SourceText where
  name := "t"
  text := "# rules\n" ++
    "\n" ++
    "r P 1990 o - Apr 1 0 1 D\n" ++
    "Leap 1972\n" ++
    "Zone Z 0 P E%s 2000 # until then\n" ++
    "# between\n" ++
    "\t1 - F\n" ++
    "Link Z A\n"

def repeatedZoneText : SourceText where
  name := "t"
  text := mixedText.text ++
    "\n" ++
    "Zone Z 0 - E\n" ++
    "Link Z B\n"

def openZoneText : SourceText where
  name := "t"
  text := mixedText.text ++
    "Zone Y 0 - E 2000\n" ++
    "\n"

theorem readText_recognises_mixedText :
    (∃ entries, Source.empty.Accepts (placedLines "t" 1 mixedText.lines)
        entries ∧
      Source.empty.Extends entries (Source.empty.readText mixedText).source) ∧
    Source.empty.BreaksAt "t" repeatedZoneText.lines 10 ∧
    Source.empty.BreaksAt "t" openZoneText.lines 10 := by
  have hread : (Source.empty.readText mixedText).fault = none ∧
      (Source.empty.readText repeatedZoneText).fault =
        some ⟨"t", 10, .duplicateZone "Z"⟩ ∧
      (Source.empty.readText openZoneText).fault =
        some ⟨"t", 10, .unterminatedZone "Y"⟩ := by
    decide +kernel
  obtain ⟨hmixed, hrepeated, hopen⟩ := hread
  obtain ⟨hgrammar, hextends, _⟩ :=
    Source.empty.readText_recognises mixedText
  obtain ⟨entries, haccepts⟩ := hgrammar.1 hmixed
  exact ⟨⟨entries, haccepts, hextends entries haccepts⟩,
    ((Source.empty.readText_recognises repeatedZoneText).2.2 _ hrepeated).2,
    ((Source.empty.readText_recognises openZoneText).2.2 _ hopen).2⟩

end ZoneTables
