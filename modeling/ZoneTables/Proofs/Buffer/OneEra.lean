import ZoneTables.Proofs.Buffer.Alike
import ZoneTables.Proofs.Buffer.Peaks

/-!
# Zones of one era

If a zone has one era that does not end, every rule takes effect in it, at
whatever instant.  The zone needs room for as many transitions as rules cover a
year, and at what time and with what saving they take effect does not matter.
-/

namespace ZoneTables

/-! ## Rules by their years -/

def Era.rules (policies : Policies) (era : Era) : List Rule :=
  match era.saving.policy? with
  | none => []
  | some name => (policies.get? name).getD []

def Era.ruleYears (policies : Policies) (era : Era) : List (Int × Int) :=
  (era.rules policies).map fun r => (r.fromYear, r.toYear)

/-- The room that rules with first and last years need in a year.  There is room
for one transition in any case. -/
def roomIn (years : List (Int × Int)) (year : Int) : Nat :=
  max (years.countP fun y => y.1 ≤ year ∧ year ≤ y.2) 1

theorem roomIn_of_perm {years years' : List (Int × Int)}
    (h : years.Perm years') : roomIn years = roomIn years' := by
  funext year
  unfold roomIn
  rw [h.countP_eq]

theorem length_covering (year : Int) (rules : List Rule) :
    (covering year rules).length =
      (rules.map fun r => (r.fromYear, r.toYear)).countP
        fun y => y.1 ≤ year ∧ year ≤ y.2 := by
  rw [List.countP_map, ← List.length_map (f := Prod.fst), map_fst_covering,
    ← List.countP_eq_length_filter]
  apply List.countP_congr
  intro r _
  rw [Rule.covers_iff, Function.comp_apply, decide_eq_true_eq]

/-! ## Spans without ends -/

structure Span.IsEverlasting (s : Span) : Prop where
  start : s.start = none
  stop : s.stop = none

theorem Span.IsEverlasting.contains {s : Span} (h : s.IsEverlasting)
    (instant : Int) : s.contains instant := by
  rw [contains_iff, h.start, h.stop]
  exact ⟨nofun, nofun⟩

theorem Pending.length_candidates {ps : List Pending}
    (h : ∀ p ∈ ps, p.active.span.IsEverlasting) (save : Int)
    (previous : Option Nat) : (candidates save previous ps).length = ps.length := by
  induction ps generalizing save previous with
  | nil => rfl
  | cons p rest ih =>
    rw [List.forall_mem_cons] at h
    rw [candidates, if_pos (h.1.contains _), List.length_cons, ih h.2,
      List.length_cons]

theorem ActiveSpan.length_of_pending {a : ActiveSpan} {year : Int}
    {ps : List Pending} (h : a.pending year = .ok ps) :
    ps.length =
      (a.span.policy.elim [] fun policy => covering year policy.rules).length := by
  rcases eq_of_pending h with ⟨hpolicy, rfl⟩ | ⟨policy, hpolicy, hall⟩
  · rw [hpolicy]
    rfl
  · rw [hpolicy, Option.elim_some, hall.length_eq]

/-! ## One era -/

section OneEra

variable {policies : Policies} {zone : String} {era : Era}
  {policy : Option NamedPolicy}

theorem rules_of_findPolicy
    (h : findPolicy zone policies era.saving = .ok policy) :
    era.rules policies = policy.elim [] (·.rules) := by
  unfold findPolicy at h
  unfold Era.rules
  generalize era.saving.policy? = name at h ⊢
  cases name with
  | none =>
    cases h
    rfl
  | some name =>
    dsimp only at h ⊢
    split at h
    · cases h
    · cases h
    · rename_i hget
      cases h
      rw [hget]
      rfl

theorem spans_singleton (hends : era.ends.isEndless = true) {l : List Span}
    (hl : spans zone policies [era] = .ok l) :
    ∃ s, l = [s] ∧ s.IsEverlasting ∧
      era.rules policies = s.policy.elim [] (·.rules) := by
  obtain ⟨policy, more, hpolicy, ⟨_, rfl, hmore⟩ | ⟨hnot, _⟩⟩ :=
    eq_of_spansFrom_cons hl
  · cases hmore
    exact ⟨_, rfl, ⟨rfl, rfl⟩, rules_of_findPolicy hpolicy⟩
  · rw [hends] at hnot
    cases hnot

theorem ZoneReplay.Collects.exists_pending {s : Span} (hs : s.IsEverlasting)
    {year : Int} {starts : List Candidate} {pending : List Pending}
    (h : (⟨zone, [s]⟩ : ZoneReplay).Collects year starts pending) :
    starts = [] ∧ ∃ a : ActiveSpan, a.span = s ∧ a.pending year = .ok pending := by
  obtain ⟨bounds, _, _, hcollect⟩ := h
  have hactive : s.isActive bounds := by
    simp [Span.isActive, Span.stopsAfter, hs.start, hs.stop]
  have hspans : [s].zipIdx.filter (fun p => p.1.isActive bounds) = [(s, 0)] := by
    simp [hactive]
  rw [hspans, collect] at hcollect
  obtain ⟨a, ha, hcollect⟩ := except_bind_eq_ok.1 hcollect
  obtain ⟨ps, hps, hcollect⟩ := except_bind_eq_ok.1 hcollect
  obtain ⟨rest, hrest, heq⟩ := except_bind_eq_ok.1 hcollect
  cases hrest
  cases heq
  obtain ⟨_, hspan, ⟨_, _, _, _, hstart, _⟩ | ⟨hnone, _⟩⟩ := eq_of_activate ha
  · rw [hs.start] at hstart
    cases hstart
  · rw [hnone, List.append_nil ps]
    exact ⟨rfl, a, hspan, hps⟩

theorem ZoneReplay.length_candidates {s : Span} (hs : s.IsEverlasting)
    {year save : Int} {cs : List Candidate}
    (hcs : (⟨zone, [s]⟩ : ZoneReplay).candidates year save = .ok cs) :
    cs.length =
      (s.policy.elim [] fun policy => covering year policy.rules).length := by
  obtain ⟨starts, pending, hcollects, rfl⟩ := candidates_eq_ok.1 hcs
  obtain ⟨rfl, a, rfl, hpending⟩ := hcollects.exists_pending hs
  have hlasting : ∀ p ∈ Pending.inOrder pending,
      p.active.span.IsEverlasting := by
    intro p hp
    rw [ActiveSpan.active_of_pending hpending p (mem_sortByKey.1 hp)]
    exact hs
  rw [List.nil_append]
  calc (Candidate.inOrder
          (Pending.candidates save none (Pending.inOrder pending))).length
    _ = (Pending.candidates save none (Pending.inOrder pending)).length :=
      (sortByKey_perm _).length_eq
    _ = (Pending.inOrder pending).length :=
      Pending.length_candidates hlasting save none
    _ = pending.length := (sortByKey_perm _).length_eq
    _ = _ := ActiveSpan.length_of_pending hpending

end OneEra

/-! ## Sizes -/

/-- Whether a size is the greatest room that the years in, next before and next
behind a window need, with the first year that needs it. -/
structure BufferSize.IsGreatest (size : BufferSize) (w : Window)
    (need : Int → Nat) : Prop where
  within : w.start - 1 ≤ size.year ∧ size.year ≤ w.stop
  attained : need size.year = size.size
  bound : ∀ year, w.start - 1 ≤ year → year ≤ w.stop → need year ≤ size.size
  first : ∀ year, w.start - 1 ≤ year → year < size.year → need year < size.size

theorem BufferSize.IsGreatest.unique {size size' : BufferSize} {w : Window}
    {need : Int → Nat} (h : size.IsGreatest w need)
    (h' : size'.IsGreatest w need) : size = size' := by
  have hsize : size.size = size'.size := by
    have hle := h'.bound size.year h.within.1 h.within.2
    have hge := h.bound size'.year h'.within.1 h'.within.2
    rw [h.attained] at hle
    rw [h'.attained] at hge
    omega
  have hyear : size.year = size'.year := by
    by_contra hne
    rcases Int.lt_or_gt_of_ne hne with hlt | hgt
    · have := h'.first size.year h.within.1 hlt
      rw [h.attained] at this
      omega
    · have := h.first size'.year h'.within.1 hgt
      rw [h'.attained] at this
      omega
  obtain ⟨n, year⟩ := size
  obtain ⟨n', year'⟩ := size'
  cases hsize
  cases hyear
  rfl

theorem ZoneReplay.PeaksAt.isGreatest {z : ZoneReplay} {w : Window}
    {size : BufferSize} {need : Int → Nat} (h : z.PeaksAt w size)
    (hneed : ∀ year n, z.NeedsIn w year n → n = need year) :
    size.IsGreatest w need where
  within := h.within
  attained := (hneed _ _ h.attained).symm
  bound year hfirst hlast := by
    obtain ⟨n, hn⟩ := h.replayed year hfirst hlast
    rw [← hneed year n hn]
    exact h.bound year n hn
  first year hfirst hlt := by
    have := h.within.2
    obtain ⟨n, hn⟩ := h.replayed year hfirst (by omega)
    rw [← hneed year n hn]
    exact h.first year n hlt hn

namespace Database

variable {db : Database} {w : Window} {sizes : BufferSizes} {zone : String}
  {era : Era}

theorem exists_isGreatest_of_oneEra (h : (db.bufferSizes w).result = .ok sizes)
    (hzone : db.zones.get? zone = some [era])
    (hends : era.ends.isEndless = true) :
    ∃ size, sizes.zones.get? zone = some size ∧
      size.IsGreatest w (roomIn (era.ruleYears db.policies)) := by
  obtain ⟨size, hsize⟩ := exists_size_of_bufferSizes h hzone
  obtain ⟨eras, l, hzone', hl, hpeaks⟩ :=
    (peaksOver_of_bufferSizes h).peak zone size hsize
  cases hzone.symm.trans hzone'
  obtain ⟨s, rfl, hs, hrules⟩ := spans_singleton hends hl
  refine ⟨size, hsize, hpeaks.isGreatest ?_⟩
  rintro year n ⟨_, _, _, cs, _, _, hcs, rfl⟩
  rw [ZoneReplay.length_candidates hs hcs, roomIn, Era.ruleYears, hrules]
  cases s.policy with
  | none => rfl
  | some policy => rw [Option.elim_some, Option.elim_some, length_covering]

/-- A zone of one era that does not end needs room for as many transitions as
rules cover a year, in the first year in which most do.  The room is the same for
all zones whose rules have these years, whatever else they say. -/
theorem bufferSize_of_oneEra (h : (db.bufferSizes w).result = .ok sizes)
    (hzone : db.zones.get? zone = some [era])
    (hends : era.ends.isEndless = true) :
    ∃ size, sizes.zones.get? zone = some size ∧
      size.IsGreatest w (roomIn (era.ruleYears db.policies)) ∧
      ∀ (db' : Database) sizes' zone' era',
        (db'.bufferSizes w).result = .ok sizes' →
        db'.zones.get? zone' = some [era'] → era'.ends.isEndless = true →
        (era.ruleYears db.policies).Perm (era'.ruleYears db'.policies) →
        sizes'.zones.get? zone' = some size := by
  obtain ⟨size, hsize, hgreatest⟩ := exists_isGreatest_of_oneEra h hzone hends
  refine ⟨size, hsize, hgreatest, ?_⟩
  intro db' sizes' zone' era' h' hzone' hends' hperm
  obtain ⟨size', hsize', hgreatest'⟩ :=
    exists_isGreatest_of_oneEra h' hzone' hends'
  rw [← roomIn_of_perm hperm] at hgreatest'
  rw [hsize', hgreatest.unique hgreatest']

end Database

/-- Two zones whose rules have the same years, of which the second one has both of
its rules at the same instant. -/
def sameYearsText : SourceText where
  name := "t"
  text := "R P 2000 o - Mar lastSun 2 1 D\n" ++
    "R P 2000 2001 - Oct lastSun 2 0 S\n" ++
    "R Q 2000 2001 - Apr 1 1:00u 2 M\n" ++
    "R Q 2000 o - Apr 1 1:00u 0:30 N\n" ++
    "Z Y 1 P E%s\n" ++
    "Z Z -9:30 Q F%s\n"

theorem bufferSize_of_oneEra_sameYearsText :
    ∃ db sizes era era', MadeFrom twoYears [sameYearsText] db ∧
      (db.bufferSizes db.window).result = .ok sizes ∧
      db.zones.get? "Y" = some [era] ∧ era.ends.isEndless = true ∧
      db.zones.get? "Z" = some [era'] ∧ era'.ends.isEndless = true ∧
      era.ruleYears db.policies ≠ era'.ruleYears db.policies ∧
      (era.ruleYears db.policies).Perm (era'.ruleYears db.policies) ∧
      BufferSize.IsGreatest ⟨2, 2000⟩ db.window
        (roomIn (era.ruleYears db.policies)) ∧
      sizes.zones.get? "Z" = some ⟨2, 2000⟩ := by
  have hrun : (Source.empty.readTexts [] [sameYearsText]).fault = none ∧
      ∃ db ∈ (Database.ofSource twoYears
        (Source.empty.readTexts [] [sameYearsText]).source).result.toOption,
      ∃ sizes ∈ (db.bufferSizes db.window).result.toOption,
      sizes.zones.get? "Y" = some ⟨2, 2000⟩ ∧
      ∃ era ∈ (db.zones.get? "Y").bind List.head?,
      ∃ era' ∈ (db.zones.get? "Z").bind List.head?,
      db.zones.get? "Y" = some [era] ∧ era.ends.isEndless = true ∧
      db.zones.get? "Z" = some [era'] ∧ era'.ends.isEndless = true ∧
      era.ruleYears db.policies ≠ era'.ruleYears db.policies ∧
      (era.ruleYears db.policies).Perm (era'.ruleYears db.policies) := by
    decide +kernel
  obtain ⟨hread, db, hdb, sizes, hsizes, hpeak, era, _, era', _, hrun⟩ := hrun
  obtain ⟨hzone, hends, hzone', hends', hne, hperm⟩ := hrun
  rw [Option.mem_def, except_toOption_eq_some] at hdb hsizes
  obtain ⟨size, hsize, hgreatest, hsame⟩ :=
    Database.bufferSize_of_oneEra hsizes hzone hends
  cases hpeak.symm.trans hsize
  exact ⟨db, sizes, era, era', ⟨hread, hdb⟩, hsizes, hzone, hends, hzone', hends',
    hne, hperm, hgreatest, hsame db sizes "Z" era' hsizes hzone' hends' hperm⟩

end ZoneTables
