import ZoneTables.NameMap.Lookup
import ZoneTables.Proofs.Source.Fields
import ZoneTables.Source.Reader

/-!
# What is read from source texts

The invariant of reading: every record that was stored has proper fields, and
the eras of a zone follow each other up to one without an end, which only the
open zone still lacks.
-/

namespace ZoneTables

/-- Whether all eras of a zone but the last one have an end, and the last one
has an end exactly if the zone is open. -/
def ErasJoined (isOpen : Bool) (eras : List SourceEra) : Prop :=
  ∃ front last, eras = front ++ [last] ∧
    (∀ era ∈ front, era.ends.isSome) ∧ last.ends.isSome = isOpen

/-- Whether records have proper fields and eras follow each other, where one
zone may be open. -/
structure Source.IsProper (s : Source) (openZone : Option String) : Prop where
  rules : ∀ {name rules}, s.policies.get? name = some rules →
    rules ≠ [] ∧ ∀ r ∈ rules, r.IsProper
  fields : ∀ {name eras}, s.zones.get? name = some eras →
    ∀ era ∈ eras, era.IsProper
  joined : ∀ {name eras}, s.zones.get? name = some eras →
    ErasJoined (openZone == some name) eras

def ReaderState.IsProper (s : ReaderState) : Prop :=
  s.source.IsProper s.openZone

namespace ErasJoined

theorem singleton (era : SourceEra) : ErasJoined era.ends.isSome [era] :=
  ⟨[], era, rfl, fun _ h => absurd h List.not_mem_nil, rfl⟩

theorem append {eras : List SourceEra} (h : ErasJoined true eras)
    (era : SourceEra) : ErasJoined era.ends.isSome (eras ++ [era]) := by
  obtain ⟨front, last, rfl, hfront, hlast⟩ := h
  refine ⟨front ++ [last], era, rfl, fun e he => ?_, rfl⟩
  rcases List.mem_append.1 he with he | he
  · exact hfront e he
  · rw [List.mem_singleton.1 he]
    exact hlast

end ErasJoined

/-! ## Storing one record -/

theorem ReaderState.openAfter_beq (zone name : String) (era : SourceEra) :
    (openAfter zone era == some name) =
      (era.ends.isSome && zone == name) := by
  unfold openAfter
  cases era.ends with
  | none => rfl
  | some u => exact Bool.true_and _ |>.symm

namespace Source.IsProper

variable {s : Source} {openZone : Option String}

theorem empty : Source.empty.IsProper none :=
  ⟨nofun, nofun, nofun⟩

theorem congr {t : Source} (h : s.IsProper openZone)
    (hpolicies : t.policies = s.policies) (hzones : t.zones = s.zones) :
    t.IsProper openZone where
  rules hr := h.rules (hpolicies ▸ hr)
  fields he := h.fields (hzones ▸ he)
  joined he := h.joined (hzones ▸ he)

theorem addRule (h : s.IsProper openZone) (policy : String) {rule : SourceRule}
    (hrule : rule.IsProper) : (s.addRule policy rule).IsProper openZone where
  rules {name rules} hr := by
    have hr' : (s.policies.alter policy fun rules => rules.getD [] ++ [rule]).get?
        name = some rules := hr
    rw [NameMap.get?_alter] at hr'
    split at hr'
    · cases hr'
      refine ⟨List.append_ne_nil_of_right_ne_nil _ (List.cons_ne_nil _ _), ?_⟩
      intro r hmem
      rcases List.mem_append.1 hmem with hmem | hmem
      · cases hold : s.policies.get? policy with
        | none =>
          rw [hold] at hmem
          exact absurd hmem List.not_mem_nil
        | some old =>
          rw [hold] at hmem
          exact (h.rules hold).2 r hmem
      · rw [List.mem_singleton.1 hmem]
        exact hrule
    · exact h.rules hr'
  fields he := h.fields he
  joined he := h.joined he

theorem addEra (h : s.IsProper openZone) (zone : String) {era : SourceEra}
    (hera : era.IsProper)
    (hzone : openZone = some zone ∨
      (openZone = none ∧ s.zones.get? zone = none)) :
    (s.addEra zone era).IsProper (ReaderState.openAfter zone era) := by
  have hget : ∀ name, (s.addEra zone era).zones.get? name =
      if name = zone then some ((s.zones.get? zone).getD [] ++ [era])
      else s.zones.get? name := fun name =>
    NameMap.get?_alter s.zones zone name _
  refine ⟨fun hr => h.rules hr, fun {name eras} he => ?_, fun {name eras} he => ?_⟩
  · rw [hget] at he
    split at he
    · cases he
      intro e hmem
      rcases List.mem_append.1 hmem with hmem | hmem
      · cases hold : s.zones.get? zone with
        | none =>
          rw [hold] at hmem
          exact absurd hmem List.not_mem_nil
        | some old =>
          rw [hold] at hmem
          exact h.fields hold e hmem
      · rw [List.mem_singleton.1 hmem]
        exact hera
    · exact h.fields he
  · rw [hget] at he
    rw [ReaderState.openAfter_beq]
    split at he
    · rename_i hname
      subst hname
      cases he
      rw [beq_self_eq_true, Bool.and_true]
      cases hold : s.zones.get? name with
      | none => exact ErasJoined.singleton era
      | some old =>
        rcases hzone with hzone | ⟨_, hnew⟩
        · have hjoined := h.joined hold
          rw [hzone, beq_self_eq_true] at hjoined
          exact hjoined.append era
        · rw [hold] at hnew
          cases hnew
    · rename_i hname
      have hjoined := h.joined he
      have hclosed : (openZone == some name) = false := by
        rcases hzone with hzone | ⟨hzone, _⟩
        · rw [hzone, beq_eq_false_iff_ne]
          exact fun heq => hname (Option.some.inj heq).symm
        · rw [hzone]
          rfl
      rw [hclosed] at hjoined
      rw [beq_eq_false_iff_ne.2 (Ne.symm hname), Bool.and_false]
      exact hjoined

end Source.IsProper

/-! ## Reading one line -/

def keywordWord (token : String) : String :=
  String.ofList (token.toList.map Char.toLower)

namespace Record

inductive Says (taken : String → Bool) (origin : SourceLine) :
    List String → Record → Prop where
  | rule {keyword policy : String} {fields : List String} {r : SourceRule}
      (word : keywordWord keyword = "rule" ∨ keywordWord keyword = "r")
      (count : fields.length = 8)
      (read : SourceRule.read origin fields = .ok r) :
      Says taken origin (keyword :: policy :: fields) (.rule policy r)
  | zone {keyword name : String} {fields : List String} {era : SourceEra}
      (word : keywordWord keyword = "zone" ∨ keywordWord keyword = "z")
      (free : taken name = false)
      (read : SourceEra.read .zone 2 origin fields = .ok era) :
      Says taken origin (keyword :: name :: fields) (.zone name era)
  | link {keyword target name : String}
      (word : keywordWord keyword = "link" ∨ keywordWord keyword = "l") :
      Says taken origin [keyword, target, name] (.link target name)
  | ignored {keyword : String} {fields : List String}
      (word : keywordWord keyword = "leap" ∨ keywordWord keyword = "expires") :
      Says taken origin (keyword :: fields) (.ignored keyword)

theorem read_eq_ok_iff {taken : String → Bool} {origin : SourceLine}
    {tokens : List String} {record : Record} :
    read taken origin tokens = .ok record ↔
      Says taken origin tokens record := by
  constructor
  · intro h
    unfold read at h
    split at h
    · cases h
    · dsimp only at h
      split at h
      · rename_i hword
        split at h
        · split at h
          · rename_i hcount
            obtain ⟨r, hr, rfl⟩ := except_map_eq_ok.1 h
            exact .rule hword hcount hr
          · cases h
        · cases h
      · split at h
        · rename_i hword
          split at h
          · split at h
            · cases h
            · rename_i hfree
              obtain ⟨era, hera, rfl⟩ := except_map_eq_ok.1 h
              exact .zone hword (Bool.eq_false_iff.2 hfree) hera
          · cases h
        · split at h
          · rename_i hword
            split at h
            · cases h
              exact .link hword
            · cases h
          · split at h
            · rename_i hword
              cases h
              exact .ignored hword
            · cases h
  · intro h
    unfold read
    cases h with
    | rule hword hcount hread =>
      unfold keywordWord at hword
      rcases hword with hword | hword <;>
        simp [hword, hcount, hread, Except.map]
    | zone hword hfree hread =>
      unfold keywordWord at hword
      rcases hword with hword | hword <;>
        simp [hword, hfree, hread, Except.map]
    | link hword =>
      unfold keywordWord at hword
      rcases hword with hword | hword <;> simp [hword]
    | ignored hword =>
      unfold keywordWord at hword
      rcases hword with hword | hword <;> simp [hword]

def IsProper (taken : String → Bool) : Record → Prop
  | rule _ r => r.IsProper
  | zone name era => taken name = false ∧ era.IsProper
  | link _ _ => True
  | ignored _ => True

theorem isProper_of_read {taken : String → Bool} {origin : SourceLine}
    {tokens : List String} {record : Record}
    (h : read taken origin tokens = .ok record) : record.IsProper taken := by
  cases read_eq_ok_iff.1 h with
  | rule _ _ hread => exact SourceRule.isProper_of_read hread
  | zone _ hfree hread => exact ⟨hfree, SourceEra.isProper_of_read hread⟩
  | link => trivial
  | ignored => trivial

end Record

namespace ReaderState

theorem isProper_addRecord {origin : SourceLine} {s : Source}
    {record : Record} (h : s.IsProper none)
    (hrecord : record.IsProper s.zones.contains) :
    (addRecord origin s record).state.IsProper := by
  cases record with
  | rule policy r => exact h.addRule policy hrecord
  | zone name era =>
    obtain ⟨hfree, hera⟩ := hrecord
    have hnew : s.zones.get? name = none := by
      rw [NameMap.contains, Option.isSome_eq_false_iff, Option.isNone_iff_eq_none]
        at hfree
      exact hfree
    exact (h.addEra name hera (.inr ⟨rfl, hnew⟩)).congr rfl rfl
  | link target name =>
    unfold addRecord
    dsimp only
    split
    · exact h.congr rfl rfl
    · exact h.congr rfl rfl
  | ignored keyword => exact h.congr rfl rfl

theorem isProper_readContent {origin : SourceLine} {s : ReaderState}
    (h : s.IsProper) (content : List Char) :
    (s.readContent origin content).state.IsProper := by
  unfold readContent
  dsimp only
  split
  · split
    · exact h
    · rename_i zone hopen
      split
      · exact h
      · rename_i era hera
        exact Source.IsProper.addEra h zone (SourceEra.isProper_of_read hera)
          (.inl hopen)
  · split
    · exact h
    · rename_i hopen
      split
      · exact h
      · rename_i record hrecord
        have hclosed : s.source.IsProper none := hopen ▸ h
        exact isProper_addRecord hclosed (Record.isProper_of_read hrecord)

theorem isProper_readLine {s : ReaderState} (h : s.IsProper) (file : String)
    (number : Nat) (line : List Char) :
    (s.readLine file number line).state.IsProper := by
  have hcount : ReaderState.IsProper { s with source := s.source.countLine } :=
    Source.IsProper.congr h rfl rfl
  unfold readLine
  dsimp only
  split
  · exact hcount
  · exact isProper_readContent hcount _

end ReaderState

/-! ## Reading texts -/

theorem Reading.isProper_lines (file : String) (ls : List (List Char)) :
    ∀ {number : Nat} {s : ReaderState} {log : Log}, s.IsProper →
      (lines file number s log ls).fault = none →
      (lines file number s log ls).source.IsProper none := by
  induction ls with
  | nil =>
    intro number s log h hfault
    unfold lines at hfault ⊢
    split at hfault
    · cases hfault
    · rename_i hopen
      have hclosed : s.source.IsProper none := hopen ▸ h
      exact hclosed.congr rfl rfl
  | cons line rest ih =>
    intro number s log h hfault
    unfold lines at hfault ⊢
    dsimp only at hfault ⊢
    split at hfault
    · cases hfault
    · exact ih (ReaderState.isProper_readLine h file number line) hfault

theorem Source.isProper_readTexts (texts : List SourceText) :
    ∀ {s : Source} {log : Log}, s.IsProper none →
      (s.readTexts log texts).fault = none →
      (s.readTexts log texts).source.IsProper none := by
  induction texts with
  | nil => exact fun h _ => h
  | cons t rest ih =>
    intro s log h hfault
    unfold readTexts at hfault ⊢
    dsimp only at hfault ⊢
    split at hfault
    · cases hfault
    · rename_i hread
      have hproper : (s.readText t).source.IsProper none :=
        Reading.isProper_lines t.name _ (s := ⟨s, none⟩) h hread
      exact ih hproper hfault

end ZoneTables
