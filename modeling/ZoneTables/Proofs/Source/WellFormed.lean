import ZoneTables.Proofs.Source.Recognition

/-!
# What texts leave behind

Texts without a fault leave records whose fields are within their bounds, and
zones whose eras end in some way up to a last one without an end.  The eras of a
zone stand in one text, on lines with content that follow each other, because a
zone is one block of the grammar and no other text can add to it.
-/

namespace ZoneTables

/-! ## Places in a text -/

def SourceText.places (t : SourceText) : List SourceLine :=
  (placedLines t.name 1 t.lines).map (·.origin)

theorem SourceText.ascending_places (t : SourceText) :
    t.places.Pairwise fun a b => a.line < b.line := by
  have hnumbers : (t.lines.zipIdx 1).Pairwise fun p q => p.2 < q.2 := by
    rw [← List.pairwise_map (f := Prod.snd), List.zipIdx_map_snd]
    exact List.pairwise_lt_range'
  unfold places placedLines
  rw [List.map_map, List.pairwise_map]
  exact hnumbers.filter _

theorem SourceText.file_of_mem_places {t : SourceText} {l : SourceLine}
    (h : l ∈ t.places) : l.file = t.name := by
  simp only [places, placedLines, List.map_map, List.mem_map] at h
  obtain ⟨_, _, rfl⟩ := h
  rfl

structure SourceText.HoldsZone (t : SourceText) (eras : List SourceEra) :
    Prop where
  places : eras.map (·.origin) <:+: t.places
  file : ∀ era ∈ eras, era.origin.file = t.name
  ascending : eras.Pairwise fun a b => a.origin.line < b.origin.line

theorem SourceText.holdsZone_of_places {t : SourceText}
    {eras : List SourceEra} (h : eras.map (·.origin) <:+: t.places) :
    t.HoldsZone eras where
  places := h
  file era hera :=
    file_of_mem_places (h.subset (List.mem_map_of_mem hera))
  ascending := by
    have hsub := t.ascending_places.sublist h.sublist
    rwa [List.pairwise_map] at hsub

/-! ## Zones as blocks -/

theorem SourceEra.Says.origin_eq {origin : SourceLine} {fields : List String}
    {era : SourceEra} (h : Says origin fields era) : era.origin = origin := by
  cases h
  rfl

theorem SourceEra.map_origin_of_says {lines : List PlacedLine}
    {eras : List SourceEra}
    (h : List.Forall₂ (fun l => Says l.origin l.words) lines eras) :
    eras.map (·.origin) = lines.map (·.origin) := by
  induction h with
  | nil => rfl
  | cons hera _ ih => rw [List.map_cons, List.map_cons, hera.origin_eq, ih]

theorem BlockSays.map_origin {block : List PlacedLine} {name : String}
    {eras : List SourceEra} (h : BlockSays block (.zone name eras)) :
    eras.map (·.origin) = block.map (·.origin) := by
  cases h with
  | zone _ _ _ hsaid _ hcontinued _ =>
    rw [List.map_cons, List.map_cons, hsaid.origin_eq,
      SourceEra.map_origin_of_says hcontinued]

theorem Splits.infix_of_zone {lines : List PlacedLine} {entries : List Entry}
    (h : Splits lines entries) {name : String} {eras : List SourceEra}
    (hzone : .zone name eras ∈ entries) :
    eras.map (·.origin) <:+: lines.map (·.origin) := by
  obtain ⟨blocks, rfl, hall⟩ := h
  obtain ⟨block, hblock, hsaid⟩ := forall₂_exists_left hall hzone
  rw [hsaid.map_origin]
  exact (List.infix_of_mem_flatten hblock).map _

namespace Source

theorem exists_entries {s : Source} {t : SourceText}
    (h : (s.readText t).fault = none) :
    ∃ entries, Splits (placedLines t.name 1 t.lines) entries ∧
      s.Extends entries (s.readText t).source := by
  have hstored := s.stored?_readText t
  rw [Reading.stored?_eq_some.2 ⟨h, rfl⟩, eq_comm, (readsAsSaid _).closed]
    at hstored
  obtain ⟨entries, hsplits, hadd⟩ := hstored
  obtain ⟨_, _, hextends⟩ := extends_of_foldlM hadd
  exact ⟨entries, hsplits, hextends.rules, hextends.policies, hextends.zones,
    hextends.links⟩

theorem get?_zones_readText {s : Source} {t : SourceText}
    (h : (s.readText t).fault = none) {name : String} {eras : List SourceEra}
    (hget : (s.readText t).source.zones.get? name = some eras) :
    s.zones.get? name = some eras ∨ t.HoldsZone eras := by
  obtain ⟨entries, hsplits, hextends⟩ := exists_entries h
  rcases (hextends.zones name eras).1 hget with hold | hnew
  · exact .inl hold
  · exact .inr (SourceText.holdsZone_of_places (hsplits.infix_of_zone hnew))

theorem get?_zones_readTexts (texts : List SourceText) :
    ∀ {s : Source} {log : Log}, (s.readTexts log texts).fault = none →
      ∀ {name : String} {eras : List SourceEra},
        (s.readTexts log texts).source.zones.get? name = some eras →
        s.zones.get? name = some eras ∨ ∃ t ∈ texts, t.HoldsZone eras := by
  induction texts with
  | nil => exact fun _ _ _ hget => .inl hget
  | cons t rest ih =>
    intro s log hfault name eras hget
    unfold readTexts at hfault hget
    dsimp only at hfault hget
    cases hread : (s.readText t).fault with
    | some fault =>
      rw [hread] at hfault
      cases hfault
    | none =>
      rw [hread] at hfault hget
      rcases ih hfault hget with hold | ⟨t', ht', hholds⟩
      · refine (get?_zones_readText hread hold).imp id fun hholds => ?_
        exact ⟨t, List.mem_cons_self, hholds⟩
      · exact .inr ⟨t', List.mem_cons_of_mem _ ht', hholds⟩

/-! ## Well-formed records -/

/-- Whether the fields of all rules and eras are within their bounds, all eras of
a zone but the last one end, and each zone stands in one of the texts. -/
structure IsWellFormed (texts : List SourceText) (s : Source) : Prop where
  rules : ∀ policy rules, s.policies.get? policy = some rules →
    ∀ r ∈ rules, r.IsProper
  eras : ∀ zone eras, s.zones.get? zone = some eras →
    ∀ era ∈ eras, era.IsProper
  joined : ∀ zone eras, s.zones.get? zone = some eras → ErasJoined false eras
  placed : ∀ zone eras, s.zones.get? zone = some eras →
    ∃ t ∈ texts, t.HoldsZone eras

theorem isWellFormed_of_readTexts {texts : List SourceText}
    (h : (empty.readTexts [] texts).fault = none) :
    (empty.readTexts [] texts).source.IsWellFormed texts := by
  have hproper := isProper_readTexts texts IsProper.empty h
  refine ⟨fun _ _ hrules => (hproper.rules hrules).2,
    fun _ _ heras => hproper.fields heras,
    fun _ _ heras => hproper.joined heras, fun zone eras heras => ?_⟩
  rcases get?_zones_readTexts texts h heras with hold | hplaced
  · cases hold
  · exact hplaced

end Source

/-- A zone of the greatest offset that ends in the last of all years, with a rule
of the least and the greatest times. -/
def outermostText : SourceText where
  name := "u"
  text := "R Q -32767 max - Dec lastSun -999:59:59 999:59:59 -\n" ++
    "Z Y 999:59:59 - G 32766 Dec 31 -999:59:59\n" ++
    "\t-999:59:59 Q H\n"

theorem isWellFormed_of_readTexts_outermostText :
    (Source.empty.readTexts [] [mixedText, outermostText]).fault = none ∧
    (Source.empty.readTexts [] [mixedText, outermostText]).source.IsWellFormed
      [mixedText, outermostText] ∧
    ∃ eras, (Source.empty.readTexts []
        [mixedText, outermostText]).source.zones.get? "Z" = some eras ∧
      eras.map (·.origin.line) = [5, 7] := by
  have hread :
      (Source.empty.readTexts [] [mixedText, outermostText]).fault = none ∧
      ∃ eras ∈ (Source.empty.readTexts []
          [mixedText, outermostText]).source.zones.get? "Z",
        eras.map (·.origin.line) = [5, 7] := by
    decide +kernel
  exact ⟨hread.1, Source.isWellFormed_of_readTexts hread.1, hread.2⟩

end ZoneTables
