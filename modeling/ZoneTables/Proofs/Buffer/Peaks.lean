import ZoneTables.Proofs.Buffer.Sizes
import ZoneTables.Proofs.Choice
import ZoneTables.Proofs.Database.Made
import ZoneTables.Proofs.Text.ByteOrder

/-!
# Peaks

The size of a zone is the need of one of the years that are replayed: no year
needs more, and no earlier year as much.  The greatest size is that of a zone,
and if a buffer is too small for it, the first zone of that size is reported.
-/

namespace ZoneTables

theorem ReplayedYear.one_le_need (y : ReplayedYear) : 1 ≤ y.need :=
  Nat.le_max_right _ _

/-! ## The peak of a zone -/

theorem ReplayedYear.isRanking_need :
    IsRanking fun a b : ReplayedYear => decide (a.need < b.need) where
  asymm {a b} hab := by
    rw [decide_eq_true_eq] at hab ⊢
    omega
  split {a b c} hac := by
    rw [decide_eq_true_eq] at hac ⊢
    rw [decide_eq_true_eq]
    omega

theorem BufferSize.ofYears_eq_firstGreatest (first : Int)
    (years : List ReplayedYear) :
    ofYears first years =
      (firstGreatest? (fun a b => decide (a.need < b.need))
        years.reverse).elim ⟨0, first⟩ fun y => ⟨y.need, y.year⟩ := by
  induction years with
  | nil => rfl
  | cons y years ih =>
    have hstep : ofYears first (y :: years) =
        if (ofYears first years).size < y.need then ⟨y.need, y.year⟩
        else ofYears first years := by
      unfold ofYears
      rw [List.reverse_cons, List.foldl_append, List.foldl_cons, List.foldl_nil]
    rw [hstep, ih, List.reverse_cons]
    unfold firstGreatest?
    rw [choose?_concat, Option.elim_some]
    cases choose? (fun a b : ReplayedYear => decide (b.need < a.need))
        years.reverse with
    | none => exact if_pos y.one_le_need
    | some b =>
      rw [Option.elim_some, Option.elim_some]
      by_cases hlt : b.need < y.need
      · rw [if_pos hlt, if_pos (decide_eq_true hlt)]
      · rw [if_neg hlt, if_neg (by rwa [decide_eq_true_eq])]

theorem BufferSize.exists_eq_ofYears {first : Int} {years : List ReplayedYear}
    (hdescend : years.Pairwise fun a b => b.year < a.year)
    (hyears : years ≠ []) :
    ∃ peak ∈ years, ofYears first years = ⟨peak.need, peak.year⟩ ∧
      (∀ y ∈ years, y.need ≤ peak.need) ∧
      ∀ y ∈ years, y.year < peak.year → y.need < peak.need := by
  rw [ofYears_eq_firstGreatest]
  cases hpeak : firstGreatest?
      (fun a b : ReplayedYear => decide (a.need < b.need)) years.reverse with
  | none =>
    have hnone := List.reverse_eq_nil_iff.1 (choose?_eq_none.1 hpeak)
    exact absurd hnone hyears
  | some peak =>
    obtain ⟨front, back, hsplit, hfront, hback⟩ :=
      choose?_eq_some ReplayedYear.isRanking_need.flip.isPreference hpeak
    simp only [decide_eq_true_eq] at hfront hback
    have hascend := List.pairwise_reverse.2 hdescend
    rw [hsplit] at hascend
    have hlater := (List.pairwise_cons.1 (List.pairwise_append.1 hascend).2.1).1
    have hmem : ∀ y, y ∈ years ↔ y ∈ front ∨ y = peak ∨ y ∈ back := by
      intro y
      rw [← List.mem_reverse, hsplit, List.mem_append, List.mem_cons]
    refine ⟨peak, (hmem peak).2 (.inr (.inl rfl)), rfl, fun y hy => ?_,
      fun y hy hyear => ?_⟩
    · rcases (hmem y).1 hy with hy | rfl | hy
      · exact Nat.le_of_lt (hfront y hy)
      · exact Nat.le_refl _
      · exact Nat.le_of_not_lt (hback y hy)
    · rcases (hmem y).1 hy with hy | rfl | hy
      · exact hfront y hy
      · exact absurd hyear (Int.lt_irrefl _)
      · have := hlater y hy
        omega

namespace ZoneReplay

variable {z : ZoneReplay} {w : Window} {year save : Int}

theorem years_descend {count : Nat} :
    ∀ {done : List ReplayedYear} {save first : Int},
      (done.Pairwise fun a b => b.year < a.year) →
      (∀ y ∈ done, y.year < first) →
      (z.years done save first count).years.Pairwise
        fun a b => b.year < a.year := by
  induction count with
  | zero => exact fun hdone _ => hdone
  | succ count ih =>
    intro done save first hdone hbefore
    rw [years]
    cases hcs : z.candidates first save with
    | error e => exact hdone
    | ok cs =>
      refine ih (List.pairwise_cons.2 ⟨hbefore, hdone⟩) ?_
      rw [List.forall_mem_cons]
      refine ⟨?_, fun y hy => ?_⟩
      · dsimp only
        omega
      · have := hbefore y hy
        omega

/-- Whether a replay over a window needs so much room in a year of it.  The
saving is looked up at the start and carried from year to year. -/
def NeedsIn (z : ZoneReplay) (w : Window) (year : Int) (need : Nat) : Prop :=
  year ≤ w.stop ∧ ∃ save before cs, z.initialSave (w.start - 1) = .ok save ∧
    z.Enters (w.start - 1) save year before ∧
    z.candidates year before = .ok cs ∧ need = max cs.length 1

structure PeaksAt (z : ZoneReplay) (w : Window) (size : BufferSize) : Prop where
  positive : 1 ≤ size.size
  within : w.start - 1 ≤ size.year ∧ size.year ≤ w.stop
  attained : z.NeedsIn w size.year size.size
  bound : ∀ year need, z.NeedsIn w year need → need ≤ size.size
  first : ∀ year need, year < size.year → z.NeedsIn w year need →
    need < size.size
  /-- No year of the window is left out. -/
  replayed : ∀ year, w.start - 1 ≤ year → year ≤ w.stop →
    ∃ need, z.NeedsIn w year need

theorem needsIn_iff (hlt : w.start < w.stop) (hfault : (z.window w).fault = none)
    {need : Nat} :
    z.NeedsIn w year need ↔
      ∃ y ∈ (z.window w).years, y.year = year ∧ y.need = need := by
  obtain ⟨save, hsave, _, hyears⟩ := window_of_fault_eq_none hlt hfault
  constructor
  · rintro ⟨hstop, save', before, cs, hsave', henters, hcs, rfl⟩
    rw [hsave] at hsave'
    cases hsave'
    exact ⟨⟨year, cs⟩, (hyears _).2 ⟨hstop, before, henters, hcs⟩, rfl, rfl⟩
  · rintro ⟨y, hy, rfl, rfl⟩
    obtain ⟨hstop, before, henters, hcs⟩ := (hyears y).1 hy
    exact ⟨hstop, save, before, y.candidates, hsave, henters, hcs, rfl⟩

theorem exists_needsIn (hlt : w.start < w.stop)
    (hfault : (z.window w).fault = none) (hstart : w.start - 1 ≤ year)
    (hstop : year ≤ w.stop) : ∃ need, z.NeedsIn w year need := by
  obtain ⟨save, hsave, ⟨after, henters⟩, _⟩ :=
    window_of_fault_eq_none hlt hfault
  obtain ⟨_, hnext, _⟩ :=
    henters.exists_before (by omega : w.start - 1 ≤ year + 1) (by omega)
  obtain ⟨before, cs, hyear, hcs⟩ := hnext.exists_candidates hstart
  exact ⟨_, hstop, save, before, cs, hsave, hyear, hcs, rfl⟩

theorem peaksAt_ofYears (hlt : w.start < w.stop)
    (hfault : (z.window w).fault = none) :
    z.PeaksAt w (BufferSize.ofYears (w.start - 1) (z.window w).years) := by
  have hneeds : ∀ {year need}, z.NeedsIn w year need ↔
      ∃ y ∈ (z.window w).years, y.year = year ∧ y.need = need :=
    fun {_ _} => needsIn_iff hlt hfault
  have hreplayed : ∀ year, w.start - 1 ≤ year → year ≤ w.stop →
      ∃ need, z.NeedsIn w year need :=
    fun _ => exists_needsIn hlt hfault
  have hdescend : (z.window w).years.Pairwise fun a b => b.year < a.year := by
    unfold window
    cases z.initialSave (w.start - 1) with
    | error e => exact .nil
    | ok save => exact years_descend .nil nofun
  have hsome : (z.window w).years ≠ [] := by
    -- the first year is replayed
    obtain ⟨need, hneed⟩ := hreplayed (w.start - 1) (by omega) (by omega)
    obtain ⟨y, hy, _⟩ := hneeds.1 hneed
    exact List.ne_nil_of_mem hy
  obtain ⟨peak, hpeak, heq, hbound, hfirst⟩ :=
    BufferSize.exists_eq_ofYears hdescend hsome
  have hattained : z.NeedsIn w peak.year peak.need :=
    hneeds.2 ⟨peak, hpeak, rfl, rfl⟩
  rw [heq]
  refine ⟨peak.one_le_need, ⟨?_, hattained.1⟩, hattained, ?_, ?_, hreplayed⟩
  · obtain ⟨_, _, _, _, _, henters, _⟩ := hattained
    exact henters.le
  · rintro year need hneed
    obtain ⟨y, hy, rfl, rfl⟩ := hneeds.1 hneed
    exact hbound y hy
  · rintro year need hyear hneed
    obtain ⟨y, hy, rfl, rfl⟩ := hneeds.1 hneed
    exact hfirst y hy hyear

end ZoneReplay

/-! ## The greatest size -/

namespace BufferSizes

variable {s : BufferSizes} {capacity : Nat}

/-- Whether a zone is the first one of the greatest size, by the bytes of its
name, and reaches it first in a year. -/
def FirstPeak (s : BufferSizes) (zone : String) (year : Int) : Prop :=
  s.zones.get? zone = some ⟨s.greatest, year⟩ ∧
    ∀ other size, s.zones.get? other = some size → size.size = s.greatest →
      other ≠ zone → Text.bytes zone < Text.bytes other

theorem firstPeak_of_head?_peaks {zone : String} {year : Int}
    (h : s.peaks.head? = some (zone, year)) : s.FirstPeak zone year := by
  unfold peaks at h
  rw [List.head?_map, Option.map_eq_some_iff] at h
  obtain ⟨⟨name, size⟩, hhead, heq⟩ := h
  cases heq
  rw [List.head?_filter] at hhead
  obtain ⟨hsize, front, back, hsplit, hfront⟩ :=
    List.find?_eq_some_iff_append.1 hhead
  simp only [beq_iff_eq] at hsize hfront
  have hsorted := s.zones.sorted
  rw [hsplit] at hsorted
  have hlater := (List.pairwise_cons.1 (List.pairwise_append.1 hsorted).2.1).1
  refine ⟨?_, fun other size' hother hgreatest hne => ?_⟩
  · rw [NameMap.get?_eq_some_iff, hsplit, ← hsize]
    exact List.mem_append_right _ List.mem_cons_self
  · rw [NameMap.get?_eq_some_iff, hsplit, List.mem_append, List.mem_cons]
      at hother
    rw [Text.bytes_lt_iff]
    rcases hother with hmem | heq | hmem
    · have := hfront _ hmem
      simp [hgreatest] at this
    · cases heq
      exact absurd rfl hne
    · exact hlater _ hmem

theorem exists_firstPeak {zone : String} {size : BufferSize}
    (hzone : s.zones.get? zone = some size) (hsize : size.size = s.greatest) :
    ∃ zone year, s.peaks.head? = some (zone, year) ∧ s.FirstPeak zone year := by
  have hmem : (zone, size.year) ∈ s.peaks := by
    unfold peaks
    refine List.mem_map.2 ⟨(zone, size), List.mem_filter.2 ⟨?_, ?_⟩, rfl⟩
    · exact NameMap.get?_eq_some_iff.1 hzone
    · exact beq_iff_eq.2 hsize
  cases hpeaks : s.peaks with
  | nil =>
    rw [hpeaks] at hmem
    cases hmem
  | cons p rest =>
    have hhead : s.peaks.head? = some p := by
      rw [hpeaks]
      rfl
    exact ⟨p.1, p.2, by rw [List.head?_cons], firstPeak_of_head?_peaks hhead⟩

theorem result_check_of_le (h : s.greatest ≤ capacity) (ignore : Bool) :
    (s.check capacity ignore).result = .ok () := by
  unfold check excess?
  rw [if_pos h]

theorem result_check_ignore : (s.check capacity true).result = .ok () := by
  unfold check
  cases s.excess? capacity <;> rfl

theorem result_check_of_lt {zone : String} {year : Int}
    (h : capacity < s.greatest) (hpeak : s.peaks.head? = some (zone, year)) :
    (s.check capacity false).result =
      .error (.tooLarge s.greatest capacity zone year) := by
  unfold check excess?
  rw [if_neg (Nat.not_le.2 h), hpeak]
  rfl

end BufferSizes

/-! ## Databases -/

namespace Database

variable {db : Database} {w : Window} {sizes : BufferSizes}

structure PeaksOver (db : Database) (w : Window) (sizes : BufferSizes) :
    Prop where
  zones : sizes.zones.keys = db.zones.keys
  peak : ∀ zone size, sizes.zones.get? zone = some size →
    ∃ eras l, db.zones.get? zone = some eras ∧
      spans zone db.policies eras = .ok l ∧
      (⟨zone, l⟩ : ZoneReplay).PeaksAt w size
  bound : ∀ zone size, sizes.zones.get? zone = some size →
    size.size ≤ sizes.greatest
  attained : db.zones.keys ≠ [] → ∃ zone size,
    sizes.zones.get? zone = some size ∧ size.size = sizes.greatest
  none : db.zones.keys = [] → sizes.greatest = 0

theorem keys_of_bufferSizes (h : (db.bufferSizes w).result = .ok sizes) :
    sizes.zones.keys = db.zones.keys := by
  obtain ⟨_, zones, hzones, rfl⟩ := bufferSizes_eq_ok.1 h
  have hkeys : zones.keys = (db.zones.map (measureZone db.policies w)).keys :=
    NameMap.keys_eq_of_forall₂ (NameMap.traverse_eq_ok.1 hzones)
  rw [← NameMap.keys_map (measureZone db.policies w), ← hkeys]
  rfl

theorem peaksOver_of_bufferSizes (h : (db.bufferSizes w).result = .ok sizes) :
    db.PeaksOver w sizes := by
  have hkeys := keys_of_bufferSizes h
  have hbound := (greatest_le_iff h).1 (Nat.le_refl sizes.greatest)
  refine ⟨hkeys, fun zone size hsize => ?_, hbound, fun hsome => ?_,
    fun hnone => ?_⟩
  · obtain ⟨eras, hzone, hmeasured⟩ := (get?_of_bufferSizes h).1 hsize
    obtain ⟨l, hl, hfault, rfl⟩ := measureZone_eq_ok.1 hmeasured
    have hlt := (bufferSizes_eq_ok.1 h).1.1
    exact ⟨eras, l, hzone, hl, ZoneReplay.peaksAt_ofYears hlt hfault⟩
  · by_contra hnot
    push Not at hnot
    -- then all sizes are less, and there is one
    have hless : sizes.greatest ≤ sizes.greatest - 1 := by
      refine (greatest_le_iff h).2 fun zone size hsize => ?_
      have := hbound zone size hsize
      have := hnot zone size hsize
      omega
    obtain ⟨zone, hzone⟩ := List.exists_mem_of_ne_nil _ hsome
    rw [← hkeys, ← NameMap.contains_iff_mem_keys] at hzone
    obtain ⟨size, hsize⟩ := Option.isSome_iff_exists.1 hzone
    have := hbound zone size hsize
    have := hnot zone size hsize
    omega
  · refine Nat.le_zero.1 ((greatest_le_iff h).2 fun zone size hsize => ?_)
    have hmem : zone ∈ sizes.zones.keys := by
      rw [← NameMap.contains_iff_mem_keys, NameMap.contains, hsize]
      rfl
    rw [hkeys, hnone] at hmem
    cases hmem

/-- The sizes that are found are the peaks of the zones.  A buffer that is
smaller than the greatest of them is refused, with the first zone that needs it
and its year, unless it is only warned of. -/
theorem bufferSizes_peaks (h : (db.bufferSizes w).result = .ok sizes) :
    db.PeaksOver w sizes ∧
      ∀ capacity, (sizes.check capacity true).result = .ok () ∧
        (sizes.greatest ≤ capacity →
          (sizes.check capacity false).result = .ok ()) ∧
        (capacity < sizes.greatest → ∃ zone year, sizes.FirstPeak zone year ∧
          (sizes.check capacity false).result =
            .error (.tooLarge sizes.greatest capacity zone year)) := by
  have hpeaks := peaksOver_of_bufferSizes h
  refine ⟨hpeaks, fun capacity => ⟨BufferSizes.result_check_ignore,
    fun hle => BufferSizes.result_check_of_le hle false, fun hlt => ?_⟩⟩
  have hzones : db.zones.keys ≠ [] := by
    intro hnone
    rw [hpeaks.none hnone] at hlt
    exact absurd hlt (Nat.not_lt_zero _)
  obtain ⟨zone, size, hzone, hsize⟩ := hpeaks.attained hzones
  obtain ⟨first, year, hhead, hfirst⟩ :=
    BufferSizes.exists_firstPeak hzone hsize
  exact ⟨first, year, hfirst, BufferSizes.result_check_of_lt hlt hhead⟩

end Database

def twinZonesText : SourceText where
  name := "t"
  text := "R P 1990 ma - Apr 1 0 1 D\n" ++
    "R P 1990 ma - Oct 1 0 0 S\n" ++
    "Z C 0 P E%s\n" ++
    "Z B 0 P E%s\n" ++
    "Z A 0 - G\n"

theorem bufferSizes_peaks_twinZonesText :
    ∃ db sizes, MadeFrom twoYears [twinZonesText] db ∧
      (db.bufferSizes db.window).result = .ok sizes ∧ sizes.greatest = 2 ∧
      sizes.peaks = [("B", 1999), ("C", 1999)] ∧
      db.PeaksOver db.window sizes ∧
      ∀ capacity, (sizes.check capacity true).result = .ok () ∧
        (sizes.greatest ≤ capacity →
          (sizes.check capacity false).result = .ok ()) ∧
        (capacity < sizes.greatest → ∃ zone year, sizes.FirstPeak zone year ∧
          (sizes.check capacity false).result =
            .error (.tooLarge sizes.greatest capacity zone year)) := by
  have hrun : (Source.empty.readTexts [] [twinZonesText]).fault = none ∧
      ∃ db ∈ (Database.ofSource twoYears
        (Source.empty.readTexts [] [twinZonesText]).source).result.toOption,
        ∃ sizes ∈ (db.bufferSizes db.window).result.toOption,
          sizes.greatest = 2 ∧
          sizes.peaks = [("B", 1999), ("C", 1999)] := by
    decide +kernel
  obtain ⟨hread, hmade⟩ := hrun
  obtain ⟨db, hdb, hsizes⟩ := exists_eq_ok_of_toOption hmade
  obtain ⟨sizes, hsizes, hgreatest, hpeaks⟩ := exists_eq_ok_of_toOption hsizes
  exact ⟨db, sizes, ⟨hread, hdb⟩, hsizes, hgreatest, hpeaks,
    Database.bufferSizes_peaks hsizes⟩

end ZoneTables
