import ZoneTables.Proofs.Database.Accounts
import ZoneTables.Proofs.Database.References

/-!
# Faults of a source

Nothing is made of a source with a fault, and all else that is wrong with it
only takes entries away.  The checks run one after the other, each for faults of
one rank, so that the report is of the first rank that applies.  Names are looked
at one by one: the first one that clashes with an earlier name is reported, and
its form counts before its hash.
-/

namespace ZoneTables

def Source.names (s : Source) : List String := s.zones.keys ++ s.links.keys

/-! ## What the faults say -/

namespace ValidationError

def rank : ValidationError → Nat
  | emptyWindow _ => 0
  | windowOutOfRange _ => 1
  | linkToLink .. => 2
  | unknownZone .. => 3
  | unknownPolicy .. => 4
  | duplicateName .. => 5
  | hashCollision .. => 5

theorem rank_lt (fault : ValidationError) : fault.rank < 6 := by
  cases fault <;> simp [rank]

/-- What a fault says of the options and of a source.  Links to links are faults
wherever they are, all else only in what may be kept. -/
inductive Applies (o : Options) (s : Source) : ValidationError → Prop where
  | emptyWindow (h : o.window.stop ≤ o.window.start) :
    Applies o s (emptyWindow o.window)
  | windowOutOfRange
    (h : o.window.start ≤ Year.least ∨ Year.endless < o.window.stop) :
    Applies o s (windowOutOfRange o.window)
  | linkToLink {link target : String}
    (hlink : s.links.get? link = some target)
    (htarget : s.links.contains target) :
    Applies o s (linkToLink link target)
  | unknownZone {link target : String}
    (hlink : (s.restrict o).source.links.get? link = some target)
    (htarget : ¬ (s.restrict o).source.zones.contains target) :
    Applies o s (unknownZone link target)
  | unknownPolicy {zone : String} {eras : List SourceEra} {era : SourceEra}
    (hzone : (s.restrict o).source.zones.get? zone = some eras)
    (hera : era ∈ eras) (hrules : isPolicyToken era.rules)
    (hpolicy : ¬ s.policies.contains era.rules) :
    Applies o s (unknownPolicy zone era.rules)
  | duplicateName {before after : List String} {name existing : String}
    (hnames : (s.restrict o).source.names = before ++ name :: after)
    (hexisting : existing ∈ before)
    (hform : Name.normalize existing = Name.normalize name) :
    Applies o s (duplicateName name existing (Name.normalize name))
  | hashCollision {before after : List String} {name existing : String}
    (hnames : (s.restrict o).source.names = before ++ name :: after)
    (hexisting : existing ∈ before)
    (hhash : Name.hash existing = Name.hash name) :
    Applies o s (hashCollision name existing (Name.hash name))

end ValidationError

/-- Whether a check finds a fault if there is one of the given ranks, and then
one of the least of these ranks. -/
structure FindsFault (o : Options) (s : Source) (first stop : Nat)
    (check : Option ValidationError) : Prop where
  found : ∀ fault, check = some fault → fault.Applies o s ∧
    first ≤ fault.rank ∧ fault.rank < stop ∧
    ∀ other : ValidationError, other.Applies o s → first ≤ other.rank →
      fault.rank ≤ other.rank
  none_left : check = none → ∀ fault : ValidationError, fault.Applies o s →
    first ≤ fault.rank → stop ≤ fault.rank

namespace FindsFault

variable {o : Options} {s : Source} {first middle stop : Nat}
  {check check' : Option ValidationError}

theorem of_rank
    (hfound : ∀ fault, check = some fault →
      fault.Applies o s ∧ fault.rank = first)
    (hnone : check = none → ∀ fault : ValidationError, fault.Applies o s →
      fault.rank ≠ first) :
    FindsFault o s first (first + 1) check where
  found fault h := by
    obtain ⟨happlies, hrank⟩ := hfound fault h
    refine ⟨happlies, by omega, by omega, fun other _ hother => ?_⟩
    omega
  none_left h fault happlies hfirst := by
    have := hnone h fault happlies
    omega

theorem or (h : FindsFault o s first middle check)
    (h' : FindsFault o s middle stop check') (hmiddle : first ≤ middle)
    (hstop : middle ≤ stop) : FindsFault o s first stop (check.or check') where
  found fault hfault := by
    cases hcheck : check with
    | some fault' =>
      rw [hcheck, Option.some_or, Option.some.injEq] at hfault
      subst hfault
      obtain ⟨happlies, hfirst, hlt, hleast⟩ := h.found fault' hcheck
      exact ⟨happlies, hfirst, by omega, hleast⟩
    | none =>
      rw [hcheck, Option.none_or] at hfault
      obtain ⟨happlies, hfirst, hlt, hleast⟩ := h'.found fault hfault
      refine ⟨happlies, by omega, hlt, fun other hother hle => ?_⟩
      exact hleast other hother (h.none_left hcheck other hother hle)
  none_left hnone fault happlies hfirst := by
    rw [Option.or_eq_none_iff] at hnone
    exact h'.none_left hnone.2 fault happlies
      (h.none_left hnone.1 fault happlies hfirst)

end FindsFault

/-- Whether a clash is the first one of some names: those before the name that is
reported have forms and hashes of their own, and so has this one a form if its
hash is reported. -/
def ValidationError.IsFirstClash (names : List String) :
    ValidationError → Prop
  | duplicateName name _ _ => ∃ before after,
    names = before ++ name :: after ∧
      (before.map Name.normalize).Nodup ∧ (before.map Name.hash).Nodup
  | hashCollision name _ _ => ∃ before after,
    names = before ++ name :: after ∧
      ((before ++ [name]).map Name.normalize).Nodup ∧
      (before.map Name.hash).Nodup
  | _ => True

theorem ValidationError.isFirstClash_of_rank_lt (fault : ValidationError)
    (h : fault.rank < 5) {names : List String} : fault.IsFirstClash names := by
  cases fault with
  | duplicateName => exact absurd h (Nat.lt_irrefl 5)
  | hashCollision => exact absurd h (Nat.lt_irrefl 5)
  | _ => trivial

/-! ## The checks -/

section Checks

variable {o : Options} {s : Source}

theorem Window.findsFault (o : Options) (s : Source) :
    FindsFault o s 0 2 o.window.fault? := by
  have hempty : FindsFault o s 0 1
      (if o.window.isEmpty then some (.emptyWindow o.window) else none) := by
    refine .of_rank (fun fault h => ?_) (fun h fault happlies hrank => ?_)
    · rw [Option.ite_none_right_eq_some, isEmpty, decide_eq_true_eq] at h
      obtain ⟨hle, ⟨⟩⟩ := h
      exact ⟨.emptyWindow hle, rfl⟩
    · cases happlies with
      | emptyWindow hle =>
        rw [ite_eq_right_iff, isEmpty, decide_eq_true_eq] at h
        exact nomatch h hle
      | _ => cases hrank
  have hrange : FindsFault o s 1 2 (if !o.window.isInRange then
      some (.windowOutOfRange o.window) else none) := by
    have hiff : (!o.window.isInRange) = true ↔
        o.window.start ≤ Year.least ∨ Year.endless < o.window.stop := by
      unfold isInRange
      rw [Bool.not_eq_true', Bool.and_eq_false_iff, decide_eq_false_iff_not,
        decide_eq_false_iff_not, Int.not_lt, Int.not_le]
    refine .of_rank (fun fault h => ?_) (fun h fault happlies hrank => ?_)
    · rw [Option.ite_none_right_eq_some, hiff] at h
      obtain ⟨hout, ⟨⟩⟩ := h
      exact ⟨.windowOutOfRange hout, rfl⟩
    · cases happlies with
      | windowOutOfRange hout =>
        rw [ite_eq_right_iff, hiff] at h
        exact nomatch h hout
      | _ => cases hrank
  have hor : o.window.fault? =
      (if o.window.isEmpty then some (.emptyWindow o.window) else none).or
        (if !o.window.isInRange then
          some (.windowOutOfRange o.window) else none) := by
    unfold fault?
    split <;> rfl
  rw [hor]
  exact hempty.or hrange (by decide) (by decide)

namespace Source

theorem linkChain?_findsFault (o : Options) (s : Source) :
    FindsFault o s 2 3 s.linkChain? := by
  refine .of_rank (fun fault h => ?_) (fun h fault happlies hrank => ?_)
  · obtain ⟨⟨link, target⟩, hmem, hfault⟩ := List.exists_of_findSome?_eq_some h
    rw [Option.ite_none_right_eq_some] at hfault
    obtain ⟨htarget, ⟨⟩⟩ := hfault
    exact ⟨.linkToLink (NameMap.get?_eq_some_iff.2 hmem) htarget, rfl⟩
  · cases happlies with
    | linkToLink hlink htarget =>
      exact linkChain?_eq_none.1 h _ _ hlink htarget
    | _ => cases hrank

theorem unknownTarget?_eq_none :
    s.unknownTarget? = none ↔ ∀ link target,
      s.links.get? link = some target → s.zones.contains target := by
  unfold unknownTarget?
  rw [List.findSome?_eq_none_iff]
  constructor
  · intro hall link target hlink
    have hnone := hall (link, target) (NameMap.get?_eq_some_iff.1 hlink)
    simpa using hnone
  · intro hall ⟨link, target⟩ hmem
    simp [hall link target (NameMap.get?_eq_some_iff.2 hmem)]

theorem unknownTarget?_findsFault (o : Options) (s : Source) :
    FindsFault o s 3 4 (s.restrict o).source.unknownTarget? := by
  refine .of_rank (fun fault h => ?_) (fun h fault happlies hrank => ?_)
  · obtain ⟨⟨link, target⟩, hmem, hfault⟩ := List.exists_of_findSome?_eq_some h
    rw [Option.ite_none_left_eq_some] at hfault
    obtain ⟨htarget, ⟨⟩⟩ := hfault
    exact ⟨.unknownZone (NameMap.get?_eq_some_iff.2 hmem) htarget, rfl⟩
  · cases happlies with
    | unknownZone hlink htarget =>
      exact htarget (unknownTarget?_eq_none.1 h _ _ hlink)
    | _ => cases hrank

theorem unknownPolicy?_eq_none :
    s.unknownPolicy? = none ↔ ∀ zone eras, s.zones.get? zone = some eras →
      ∀ era ∈ eras, isPolicyToken era.rules → s.policies.contains era.rules := by
  have hera : ∀ (zone : String) (era : SourceEra),
      (era.policy?.bind fun policy =>
        if s.policies.contains policy then none
        else some (ValidationError.unknownPolicy zone policy)) = none ↔
      (isPolicyToken era.rules → s.policies.contains era.rules) := by
    intro zone era
    unfold SourceEra.policy?
    by_cases hrules : isPolicyToken era.rules <;> simp [hrules]
  unfold unknownPolicy?
  simp only [List.findSome?_eq_none_iff, hera]
  constructor
  · intro hall zone eras hzone
    exact hall (zone, eras) (NameMap.get?_eq_some_iff.1 hzone)
  · intro hall ⟨zone, eras⟩ hmem
    exact hall zone eras (NameMap.get?_eq_some_iff.2 hmem)

theorem unknownPolicy?_findsFault (o : Options) (s : Source) :
    FindsFault o s 4 5 (s.restrict o).source.unknownPolicy? := by
  refine .of_rank (fun fault h => ?_) (fun h fault happlies hrank => ?_)
  · obtain ⟨⟨zone, eras⟩, hmem, hfault⟩ := List.exists_of_findSome?_eq_some h
    obtain ⟨era, hera, hfault⟩ := List.exists_of_findSome?_eq_some hfault
    obtain ⟨policy, hpolicy, hfault⟩ := Option.bind_eq_some_iff.1 hfault
    rw [SourceEra.policy?, Option.ite_none_right_eq_some] at hpolicy
    obtain ⟨hrules, ⟨⟩⟩ := hpolicy
    rw [Option.ite_none_left_eq_some] at hfault
    obtain ⟨hunknown, ⟨⟩⟩ := hfault
    exact ⟨.unknownPolicy (NameMap.get?_eq_some_iff.2 hmem) hera hrules hunknown,
      rfl⟩
  · cases happlies with
    | unknownPolicy hzone hera hrules hpolicy =>
      exact hpolicy (unknownPolicy?_eq_none.1 h _ _ hzone _ hera hrules)
    | _ => cases hrank

/-! ## Names that clash -/

theorem ne_of_nodup_map {α β : Type} {f : α → β} {before after : List α}
    {a b : α} (h : ((before ++ a :: after).map f).Nodup) (hb : b ∈ before) :
    f b ≠ f a := by
  rw [List.map_append, List.map_cons, List.nodup_append] at h
  exact h.2.2 _ (List.mem_map_of_mem hb) _ List.mem_cons_self

theorem clash?_eq_some {earlier : List NameForms} {name : NameForms}
    {fault : ValidationError} (h : clash? earlier name = some fault) :
    (∃ other ∈ earlier, other.normalized = name.normalized ∧
      fault = .duplicateName name.name other.name name.normalized) ∨
    ((∀ other ∈ earlier, other.normalized ≠ name.normalized) ∧
      ∃ other ∈ earlier, other.hash = name.hash ∧
        fault = .hashCollision name.name other.name name.hash) := by
  unfold clash? at h
  split at h
  · rename_i other hform
    have hsame := List.find?_some hform
    cases h
    exact .inl ⟨other, List.mem_of_find?_eq_some hform, beq_iff_eq.1 hsame, rfl⟩
  · rename_i hform
    simp only [List.find?_eq_none, beq_iff_eq] at hform
    split at h
    · rename_i other hhash
      have hsame := List.find?_some hhash
      cases h
      exact .inr ⟨hform, other, List.mem_of_find?_eq_some hhash,
        beq_iff_eq.1 hsame, rfl⟩
    · cases h

theorem firstClash?_eq_some {names : List NameForms} {fault : ValidationError} :
    ∀ {earlier : List NameForms}, firstClash? earlier names = some fault →
      ∃ before name after, names = before ++ name :: after ∧
        firstClash? earlier before = none ∧
        clash? (before.reverse ++ earlier) name = some fault := by
  induction names with
  | nil => exact nofun
  | cons name rest ih =>
    intro earlier h
    rw [firstClash?] at h
    cases hclash : clash? earlier name with
    | some fault' =>
      rw [hclash] at h
      cases h
      exact ⟨[], name, rest, rfl, rfl, hclash⟩
    | none =>
      rw [hclash] at h
      obtain ⟨before, name', after, rfl, hbefore, hname'⟩ := ih h
      refine ⟨name :: before, name', after, rfl, ?_, ?_⟩
      · rw [firstClash?, hclash]
        exact hbefore
      · rwa [List.reverse_cons, List.append_assoc]

theorem nameClash?_eq_some {fault : ValidationError}
    (h : s.nameClash? = some fault) :
    ∃ before name after, s.names = before ++ name :: after ∧
      (before.map Name.normalize).Nodup ∧ (before.map Name.hash).Nodup ∧
      ((∃ existing ∈ before, Name.normalize existing = Name.normalize name ∧
        fault = .duplicateName name existing (Name.normalize name)) ∨
      ((∀ other ∈ before, Name.normalize other ≠ Name.normalize name) ∧
        ∃ existing ∈ before, Name.hash existing = Name.hash name ∧
          fault = .hashCollision name existing (Name.hash name))) := by
  obtain ⟨formsBefore, form, formsAfter, hforms, hbefore, hclash⟩ :=
    firstClash?_eq_some h
  obtain ⟨before, rest, hnames, rfl, hrest⟩ := List.map_eq_append_iff.1 hforms
  obtain ⟨name, after, rfl, rfl, rfl⟩ := List.map_eq_cons_iff.1 hrest
  rw [List.append_nil] at hclash
  obtain ⟨hnodup, hnodup'⟩ := firstClash?_map_eq_none.1 hbefore
  refine ⟨before, name, after, hnames, hnodup, hnodup', ?_⟩
  simpa [NameForms.of] using clash?_eq_some hclash

theorem nameClash?_findsFault (o : Options) (s : Source) :
    FindsFault o s 5 6 (s.restrict o).source.nameClash? := by
  refine .of_rank (fun fault h => ?_) (fun h fault happlies hrank => ?_)
  · obtain ⟨before, name, after, hnames, _, _, hclash⟩ := nameClash?_eq_some h
    rcases hclash with ⟨existing, hmem, hsame, rfl⟩ |
      ⟨_, existing, hmem, hsame, rfl⟩
    · exact ⟨.duplicateName hnames hmem hsame, rfl⟩
    · exact ⟨.hashCollision hnames hmem hsame, rfl⟩
  · have hnodup : ((s.restrict o).source.names.map Name.normalize).Nodup ∧
        ((s.restrict o).source.names.map Name.hash).Nodup :=
      nameClash?_eq_none.1 h
    cases happlies with
    | duplicateName hnames hexisting hform =>
      rw [hnames] at hnodup
      exact ne_of_nodup_map hnodup.1 hexisting hform
    | hashCollision hnames hexisting hhash =>
      rw [hnames] at hnodup
      exact ne_of_nodup_map hnodup.2 hexisting hhash
    | _ => cases hrank

theorem isFirstClash_of_nameClash? {fault : ValidationError}
    (h : s.nameClash? = some fault) : fault.IsFirstClash s.names := by
  obtain ⟨before, name, after, hnames, hforms, hhashes, hclash⟩ :=
    nameClash?_eq_some h
  rcases hclash with ⟨_, _, _, rfl⟩ | ⟨hnew, _, _, _, rfl⟩
  · exact ⟨before, after, hnames, hforms, hhashes⟩
  · refine ⟨before, after, hnames, ?_, hhashes⟩
    rw [List.map_append, List.map_singleton, List.nodup_append]
    simpa using ⟨hforms, hnew⟩

def referenceFault? (o : Options) (s : Source) : Option ValidationError :=
  o.window.fault?.or (s.linkChain?.or
    ((s.restrict o).source.unknownTarget?.or
      (s.restrict o).source.unknownPolicy?))

def firstFault? (o : Options) (s : Source) : Option ValidationError :=
  (s.referenceFault? o).or (s.restrict o).source.nameClash?

theorem referenceFault?_findsFault (o : Options) (s : Source) :
    FindsFault o s 0 5 (s.referenceFault? o) := by
  have hnames : FindsFault o s 3 5 _ :=
    (unknownTarget?_findsFault o s).or (unknownPolicy?_findsFault o s)
      (by decide) (by decide)
  have hlinks : FindsFault o s 2 5 _ :=
    (linkChain?_findsFault o s).or hnames (by decide) (by decide)
  exact (Window.findsFault o s).or hlinks (by decide) (by decide)

theorem firstFault?_findsFault (o : Options) (s : Source) :
    FindsFault o s 0 6 (s.firstFault? o) :=
  (referenceFault?_findsFault o s).or (nameClash?_findsFault o s)
    (by decide) (by decide)

theorem isFirstClash_of_firstFault? {fault : ValidationError}
    (h : s.firstFault? o = some fault) :
    fault.IsFirstClash (s.restrict o).source.names := by
  rcases Option.or_eq_some_iff.1 h with hreference | ⟨_, hclash⟩
  · have hrank := ((referenceFault?_findsFault o s).found fault hreference).2.2.1
    exact fault.isFirstClash_of_rank_lt hrank
  · exact isFirstClash_of_nameClash? hclash

end Source

end Checks

/-! ## Made databases -/

namespace Database

variable (o : Options) (s : Source)

theorem result_ofSource :
    (ofSource o s).result =
      match s.firstFault? o with
      | some fault => .error fault
      | none =>
        .ok (make o (s.restrict o).source (s.restrict o).findings).database := by
  have hfault : s.firstFault? o = (o.window.fault?.or s.linkChain?).or
      (s.restrict o).source.fault? := by
    unfold Source.firstFault? Source.referenceFault? Source.fault?
    simp only [Option.or_assoc]
  rw [hfault]
  unfold ofSource
  cases o.window.fault?.or s.linkChain? with
  | some fault => rfl
  | none =>
    rw [Option.none_or]
    dsimp only
    cases (s.restrict o).source.fault? <;> rfl

theorem ofSource_eq_error {fault : ValidationError} :
    (ofSource o s).result = .error fault ↔ s.firstFault? o = some fault := by
  rw [result_ofSource]
  cases s.firstFault? o <;> simp

/-- A source is refused exactly if it has a fault.  The report is of a fault that
applies and of the first rank that does, and of the first name that clashes.
Without a fault a database is made, and of each zone, policy and link of the
source it says that it is there or why it was removed. -/
theorem fault_reported :
    ((∃ fault, (ofSource o s).result = .error fault) ↔
      ∃ fault : ValidationError, fault.Applies o s) ∧
    (∀ fault, (ofSource o s).result = .error fault → fault.Applies o s ∧
      (∀ other : ValidationError, other.Applies o s →
        fault.rank ≤ other.rank) ∧
      fault.IsFirstClash (s.restrict o).source.names) ∧
    ((¬ ∃ fault : ValidationError, fault.Applies o s) →
      ∃ db, (ofSource o s).result = .ok db ∧
        Accounted s.zones db.zones db.comments.removedZones ∧
        Accounted s.policies db.policies db.comments.removedPolicies ∧
        Accounted s.links db.links db.comments.removedLinks) := by
  have hfinds := s.firstFault?_findsFault o
  have hfault : s.firstFault? o ≠ none ↔
      ∃ fault : ValidationError, fault.Applies o s := by
    rw [Option.ne_none_iff_exists']
    constructor
    · rintro ⟨fault, h⟩
      exact ⟨fault, (hfinds.found fault h).1⟩
    · rintro ⟨fault, happlies⟩
      rw [← Option.ne_none_iff_exists']
      intro hnone
      have hle := hfinds.none_left hnone fault happlies (Nat.zero_le _)
      have hlt := fault.rank_lt
      omega
  simp only [ofSource_eq_error, ← hfault]
  refine ⟨Option.ne_none_iff_exists'.symm, fun fault h => ?_, fun h => ?_⟩
  · obtain ⟨happlies, _, _, hleast⟩ := hfinds.found fault h
    exact ⟨happlies, fun other hother => hleast other hother (Nat.zero_le _),
      Source.isFirstClash_of_firstFault? h⟩
  · rw [Decidable.not_not] at h
    rw [result_ofSource, h]
    have hall := make_tellsAll o s
    exact ⟨_, rfl, hall.zones.accounted, hall.policies.accounted,
      hall.links.accounted⟩

end Database

def clashingText : SourceText where
  name := "t"
  text := "Z Aa 0 - A\n" ++
    "Z B@ 0 - B\n" ++
    "Z Z-Z 0 - C\n" ++
    "L Aa Z/Z\n"

/-- Of two clashes the first is reported, though it is one of hashes only.  The
zone of one rule has no fault. -/
theorem fault_reported_clashingText :
    (∃ s, (Source.empty.readTexts [] [clashingText]).source = s ∧
      (Database.ofSource twoYears s).result =
        .error (.hashCollision "B@" "Aa" (Name.hash "B@")) ∧
      (ValidationError.hashCollision "B@" "Aa" (Name.hash "B@")).Applies
        twoYears s ∧
      (ValidationError.duplicateName "Z/Z" "Z-Z" "Z_Z").Applies twoYears s ∧
      (∀ other : ValidationError, other.Applies twoYears s → 5 ≤ other.rank) ∧
      (ValidationError.hashCollision "B@" "Aa" (Name.hash "B@")).IsFirstClash
        ["Aa", "B@", "Z-Z", "Z/Z"]) ∧
    ∃ s db, (Source.empty.readTexts [] [oneRuleText]).source = s ∧
      (Database.ofSource twoYears s).result = .ok db ∧
      Accounted s.zones db.zones db.comments.removedZones := by
  refine ⟨⟨_, rfl, ?_⟩, ?_⟩
  · have hrun : (Database.ofSource twoYears
        (Source.empty.readTexts [] [clashingText]).source).result =
          .error (.hashCollision "B@" "Aa" (Name.hash "B@")) ∧
        ((Source.empty.readTexts [] [clashingText]).source.restrict
          twoYears).source.names = ["Aa", "B@", "Z-Z", "Z/Z"] := by
      decide +kernel
    obtain ⟨hfault, hnames⟩ := hrun
    obtain ⟨happlies, hleast, hfirst⟩ :=
      (Database.fault_reported twoYears _).2.1 _ hfault
    rw [hnames] at hfirst
    refine ⟨hfault, happlies, ?_, hleast, hfirst⟩
    exact @ValidationError.Applies.duplicateName _ _ ["Aa", "B@", "Z-Z"] []
      "Z/Z" "Z-Z" hnames (by decide) (by decide +kernel)
  · have hrun : ∃ db, (Database.ofSource twoYears
        (Source.empty.readTexts [] [oneRuleText]).source).result = .ok db :=
      except_isOk_iff.1 (by decide +kernel)
    obtain ⟨db, hdb⟩ := hrun
    have hreported := Database.fault_reported twoYears
      (Source.empty.readTexts [] [oneRuleText]).source
    have hnone : ¬ ∃ fault : ValidationError, fault.Applies twoYears
        (Source.empty.readTexts [] [oneRuleText]).source := by
      rw [← hreported.1]
      rintro ⟨fault, hfault⟩
      rw [hdb] at hfault
      cases hfault
    obtain ⟨db, hdb, hzones, _⟩ := hreported.2.2 hnone
    exact ⟨_, db, rfl, hdb, hzones⟩

end ZoneTables
