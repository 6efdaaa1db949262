import ZoneTables.Proofs.Buffer.Sizes
import ZoneTables.Proofs.Database.Made
import ZoneTables.Proofs.Sort

/-!
# Sizes over wider windows

A wider window replays all years of a narrower one.  If it starts in the same
year it finds the same candidates in them, and no size shrinks.  If it starts
earlier, the saving that it carries into the first common year can be another
one than is looked up there, and then an occurrence on the wall clock can fall
out of its span that would otherwise have to be held.
-/

namespace ZoneTables

/-! ## Occurrences of a year -/

namespace Pending

def countsAfter (save : Int) (p : Pending) : Bool :=
  p.active.span.contains (p.candidate save).instant

def saveAfter (save : Int) (previous : Option Nat) (p : Pending) : Int :=
  let before := p.saveBefore save previous
  if p.countsAfter before then p.rule.save else before

def saveBehind (save : Int) (previous : Option Nat) :
    List Pending → Pending → Int
  | [], p => p.saveBefore save previous
  | q :: front, p =>
    saveBehind (q.saveAfter save previous) (some q.active.index) front p

theorem candidates_cons (save : Int) (previous : Option Nat) (p : Pending)
    (rest : List Pending) :
    candidates save previous (p :: rest) =
      (if p.countsAfter (p.saveBefore save previous) then
        [p.candidate (p.saveBefore save previous)] else []) ++
        candidates (p.saveAfter save previous) (some p.active.index) rest := by
  rw [candidates]
  unfold saveAfter countsAfter
  dsimp only
  split
  · rfl
  · rfl

/-- If a saving makes more candidates of occurrences than another one, an
occurrence lies in its span with the one and not with the other. -/
theorem exists_of_length_lt {ps : List Pending} :
    ∀ {save save' : Int} {previous : Option Nat},
      (candidates save' previous ps).length <
          (candidates save previous ps).length →
      ∃ front p back, ps = front ++ p :: back ∧
        p.countsAfter (saveBehind save previous front p) ∧
        ¬ p.countsAfter (saveBehind save' previous front p) := by
  induction ps with
  | nil => exact fun h => absurd h (Nat.lt_irrefl _)
  | cons p rest ih =>
    intro save save' previous h
    rw [candidates_cons, candidates_cons, List.length_append,
      List.length_append] at h
    by_cases hcounts : p.countsAfter (p.saveBefore save previous) ∧
        ¬ p.countsAfter (p.saveBefore save' previous)
    · exact ⟨[], p, rest, rfl, hcounts⟩
    · -- the first occurrence counts no more than with the other saving
      have hrest : (candidates (p.saveAfter save' previous)
            (some p.active.index) rest).length <
          (candidates (p.saveAfter save previous)
            (some p.active.index) rest).length := by
        by_cases hp : p.countsAfter (p.saveBefore save previous)
        · have hp' : p.countsAfter (p.saveBefore save' previous) := by
            by_contra hnot
            exact hcounts ⟨hp, hnot⟩
          rw [if_pos hp, if_pos hp', List.length_singleton,
            List.length_singleton] at h
          omega
        · rw [if_neg hp, List.length_nil] at h
          omega
      obtain ⟨front, q, back, rfl, hq⟩ := ih hrest
      exact ⟨p :: front, q, back, rfl, hq⟩

theorem frame_eq_wall {save save' : Int} {p : Pending}
    (h : p.countsAfter save) (h' : ¬ p.countsAfter save') :
    p.rule.frame = .wall := by
  unfold countsAfter candidate at h h'
  cases hframe : p.rule.frame with
  | wall => rfl
  | standard =>
    rw [hframe] at h h'
    exact absurd h h'
  | utc =>
    rw [hframe] at h h'
    exact absurd h h'

end Pending

namespace ZoneReplay

variable {z : ZoneReplay} {w w' : Window} {year save save' : Int}

/-- Whether a rule on the wall clock takes effect in its span in a year if a
saving is carried into the year, and not if another one is. -/
def Gains (z : ZoneReplay) (year save save' : Int) : Prop :=
  ∃ starts pending front p back, z.Collects year starts pending ∧
    Pending.inOrder pending = front ++ p :: back ∧ p.rule.frame = .wall ∧
    p.countsAfter (Pending.saveBehind save none front p) ∧
    ¬ p.countsAfter (Pending.saveBehind save' none front p)

theorem gains_of_length_lt {cs cs' : List Candidate}
    (h : z.candidates year save = .ok cs)
    (h' : z.candidates year save' = .ok cs') (hlt : cs'.length < cs.length) :
    z.Gains year save save' := by
  obtain ⟨starts, pending, hcollects, rfl⟩ := candidates_eq_ok.1 h
  obtain ⟨starts', pending', hcollects', rfl⟩ := candidates_eq_ok.1 h'
  obtain ⟨rfl, rfl⟩ := hcollects.unique hcollects'
  unfold Candidate.inOrder at hlt
  rw [(sortByKey_perm _).length_eq, (sortByKey_perm _).length_eq,
    List.length_append, List.length_append] at hlt
  obtain ⟨front, p, back, hsplit, hp, hp'⟩ :=
    Pending.exists_of_length_lt (by omega :
      (Pending.candidates save' none (Pending.inOrder pending)).length <
        (Pending.candidates save none (Pending.inOrder pending)).length)
  exact ⟨starts, pending, front, p, back, hcollects, hsplit,
    Pending.frame_eq_wall hp hp', hp, hp'⟩

/-- Whether a year of a window needs more than some room, which it needs
because the saving that is looked up before the window is not the one that a
replay over another window carries there. -/
def Outgrows (z : ZoneReplay) (w w' : Window) (room : Nat) : Prop :=
  ∃ first looked carried year save save' cs,
    z.initialSave (w'.start - 1) = .ok first ∧
    z.Enters (w'.start - 1) first (w.start - 1) carried ∧
    z.initialSave (w.start - 1) = .ok looked ∧ looked ≠ carried ∧
    z.Enters (w.start - 1) looked year save ∧
    z.Enters (w.start - 1) carried year save' ∧ save ≠ save' ∧
    z.Gains year save save' ∧ year ≤ w.stop ∧
    z.candidates year save = .ok cs ∧ room < max cs.length 1

/-- The peak over a window keeps to a room that the peak over a wider one keeps
to, unless a year outgrows it. -/
theorem size_le_iff {room : Nat} (hlt : w.start < w.stop)
    (hlt' : w'.start < w'.stop) (hstart : w'.start ≤ w.start)
    (hstop : w.stop ≤ w'.stop) (hfault : (z.window w).fault = none)
    (hfault' : (z.window w').fault = none)
    (hroom : (BufferSize.ofYears (w'.start - 1) (z.window w').years).size ≤
      room) :
    (BufferSize.ofYears (w.start - 1) (z.window w).years).size ≤ room ↔
      ¬ z.Outgrows w w' room := by
  obtain ⟨looked, hlooked, _, hyears⟩ := window_of_fault_eq_none hlt hfault
  obtain ⟨first, hfirst, ⟨after, hafter⟩, hyears'⟩ :=
    window_of_fault_eq_none hlt' hfault'
  rw [BufferSize.size_ofYears_le] at hroom ⊢
  constructor
  · rintro hall ⟨_, looked', _, year, save, _, cs, _, _, hlooked', _, henters,
      _, _, _, hyear, hcs, hneed⟩
    rw [hlooked] at hlooked'
    cases hlooked'
    have hle := hall ⟨year, cs⟩ ((hyears _).2 ⟨hyear, save, henters, hcs⟩)
    unfold ReplayedYear.need at hle
    dsimp only at hle
    omega
  · intro hnot y hy
    by_contra hneed
    obtain ⟨hyear, save, henters, hcs⟩ := (hyears y).1 hy
    have hfrom := henters.le
    -- the wider replay comes to this year too; if it entered with the same saving it
    -- would need the same room
    obtain ⟨carried, hcarried, hrest⟩ := hafter.exists_before
      (by omega : w'.start - 1 ≤ w.start - 1) (by omega)
    obtain ⟨_, hnext, _⟩ := hrest.exists_before
      (by omega : w.start - 1 ≤ y.year + 1) (by omega)
    obtain ⟨save', cs', henters', hcs'⟩ := hnext.exists_candidates hfrom
    have hle := hroom ⟨y.year, cs'⟩
      ((hyears' _).2 ⟨by dsimp only; omega, save', hcarried.trans henters', hcs'⟩)
    unfold ReplayedYear.need at hle hneed
    dsimp only at hle
    have hsaves : save ≠ save' := by
      rintro rfl
      rw [hcs] at hcs'
      cases hcs'
      exact hneed hle
    have hdiffer : looked ≠ carried := by
      rintro rfl
      exact hsaves (henters.unique henters')
    exact hnot ⟨first, looked, carried, y.year, save, save', y.candidates,
      hfirst, hcarried, hlooked, hdiffer, henters, henters', hsaves,
      gains_of_length_lt hcs hcs' (by omega), hyear, hcs, by omega⟩

theorem not_outgrows_of_start_eq {room : Nat} (h : w.start = w'.start) :
    ¬ z.Outgrows w w' room := by
  rintro ⟨first, looked, carried, _, _, _, _, hfirst, hcarried, hlooked, hne, _⟩
  rw [h] at hcarried hlooked
  rw [hfirst] at hlooked
  cases hlooked
  exact hne (Enters.start.unique hcarried)

end ZoneReplay

/-! ## Databases -/

namespace Database

def Outgrows (db : Database) (w w' : Window) (zone : String) (room : Nat) :
    Prop :=
  ∃ eras l, db.zones.get? zone = some eras ∧
    spans zone db.policies eras = .ok l ∧
    (⟨zone, l⟩ : ZoneReplay).Outgrows w w' room

theorem size_le_iff_not_outgrows {db : Database} {w w' : Window}
    {sizes sizes' : BufferSizes} (hstart : w'.start ≤ w.start)
    (hstop : w.stop ≤ w'.stop) (h : (db.bufferSizes w).result = .ok sizes)
    (h' : (db.bufferSizes w').result = .ok sizes') {zone : String}
    {size size' : BufferSize} (hsize : sizes.zones.get? zone = some size)
    (hsize' : sizes'.zones.get? zone = some size') {room : Nat}
    (hroom : size'.size ≤ room) :
    size.size ≤ room ↔ ¬ db.Outgrows w w' zone room := by
  obtain ⟨⟨hlt, _⟩, _⟩ := bufferSizes_eq_ok.1 h
  obtain ⟨⟨hlt', _⟩, _⟩ := bufferSizes_eq_ok.1 h'
  obtain ⟨eras, hzone, hmeasure⟩ := (get?_of_bufferSizes h).1 hsize
  obtain ⟨eras', hzone', hmeasure'⟩ := (get?_of_bufferSizes h').1 hsize'
  rw [hzone] at hzone'
  cases hzone'
  obtain ⟨l, hl, hfault, rfl⟩ := measureZone_eq_ok.1 hmeasure
  obtain ⟨l', hl', hfault', rfl⟩ := measureZone_eq_ok.1 hmeasure'
  rw [hl] at hl'
  cases hl'
  rw [ZoneReplay.size_le_iff hlt hlt' hstart hstop hfault hfault' hroom]
  constructor
  · rintro hnot ⟨eras', l', hzone', hl', hgrows⟩
    rw [hzone] at hzone'
    cases hzone'
    rw [hl] at hl'
    cases hl'
    exact hnot hgrows
  · exact fun hnot hgrows => hnot ⟨eras, l, hzone, hl, hgrows⟩

/-- Over a wider window no size shrinks, neither that of a zone nor the
greatest, unless a zone outgrows it; none does if the windows start in the same
year. -/
theorem bufferSizes_widen {db : Database} {w w' : Window}
    {sizes sizes' : BufferSizes} (hstart : w'.start ≤ w.start)
    (hstop : w.stop ≤ w'.stop) (h : (db.bufferSizes w).result = .ok sizes)
    (h' : (db.bufferSizes w').result = .ok sizes') :
    (∀ zone size size', sizes.zones.get? zone = some size →
        sizes'.zones.get? zone = some size' →
        (size.size ≤ size'.size ↔ ¬ db.Outgrows w w' zone size'.size)) ∧
      (sizes.greatest ≤ sizes'.greatest ↔
        ∀ zone, ¬ db.Outgrows w w' zone sizes'.greatest) ∧
      (w.start = w'.start → ∀ zone room, ¬ db.Outgrows w w' zone room) := by
  refine ⟨?_, ?_, ?_⟩
  · intro zone size size' hsize hsize'
    exact size_le_iff_not_outgrows hstart hstop h h' hsize hsize' (Nat.le_refl _)
  · have hroom := (greatest_le_iff h').1 (Nat.le_refl sizes'.greatest)
    rw [greatest_le_iff h]
    constructor
    · rintro hall zone ⟨eras, l, hzone, hrest⟩
      obtain ⟨size, hsize⟩ := exists_size_of_bufferSizes h hzone
      obtain ⟨size', hsize'⟩ := exists_size_of_bufferSizes h' hzone
      exact (size_le_iff_not_outgrows hstart hstop h h' hsize hsize'
        (hroom zone size' hsize')).1 (hall zone size hsize)
        ⟨eras, l, hzone, hrest⟩
    · intro hnot zone size hsize
      obtain ⟨eras, hzone, _⟩ := (get?_of_bufferSizes h).1 hsize
      obtain ⟨size', hsize'⟩ := exists_size_of_bufferSizes h' hzone
      exact (size_le_iff_not_outgrows hstart hstop h h' hsize hsize'
        (hroom zone size' hsize')).2 (hnot zone)
  · rintro hyear zone room ⟨eras, l, _, _, hgrows⟩
    exact ZoneReplay.not_outgrows_of_start_eq hyear hgrows

end Database

def secondYear : Window := ⟨2001, 2002⟩

theorem bufferSizes_widen_oneRuleText :
    ∃ db sizes sizes', MadeFrom twoYears [oneRuleText] db ∧
      db.window.start ≤ secondYear.start ∧ secondYear.stop ≤ db.window.stop ∧
      (db.bufferSizes secondYear).result = .ok sizes ∧
      (db.bufferSizes db.window).result = .ok sizes' ∧
      (∀ zone size size', sizes.zones.get? zone = some size →
          sizes'.zones.get? zone = some size' →
          (size.size ≤ size'.size ↔
            ¬ db.Outgrows secondYear db.window zone size'.size)) ∧
        (sizes.greatest ≤ sizes'.greatest ↔
          ∀ zone, ¬ db.Outgrows secondYear db.window zone sizes'.greatest) ∧
        (secondYear.start = db.window.start →
          ∀ zone room, ¬ db.Outgrows secondYear db.window zone room) := by
  have hrun : (Source.empty.readTexts [] [oneRuleText]).fault = none ∧
      ∃ db ∈ (Database.ofSource twoYears
        (Source.empty.readTexts [] [oneRuleText]).source).result.toOption,
        db.window.start ≤ secondYear.start ∧
        secondYear.stop ≤ db.window.stop ∧
        (∃ _ ∈ (db.bufferSizes secondYear).result.toOption, True) ∧
        ∃ _ ∈ (db.bufferSizes db.window).result.toOption, True := by
    decide +kernel
  obtain ⟨hread, hmade⟩ := hrun
  obtain ⟨db, hdb, hstart, hstop, hsizes, hsizes'⟩ :=
    exists_eq_ok_of_toOption hmade
  obtain ⟨sizes, hsizes, _⟩ := exists_eq_ok_of_toOption hsizes
  obtain ⟨sizes', hsizes', _⟩ := exists_eq_ok_of_toOption hsizes'
  exact ⟨db, sizes, sizes', ⟨hread, hdb⟩, hstart, hstop, hsizes, hsizes',
    Database.bufferSizes_widen hstart hstop hsizes hsizes'⟩

/-- An era of rules that starts half an hour before 2000 in universal time.
An hour is saved until the rule of 1 January 2000, so that by the clock of that
era this rule takes effect before the era starts. -/
def newYearText : SourceText where
  name := "t"
  text := "R P 1990 o - Jul 1 0 1 D\n" ++
    "R P 2000 o - Jan 1 0 0 S\n" ++
    "R P 2000 o - Jul 1 0 1 D\n" ++
    "Z Z 0 - G 1999 Dec 31 23:30u\n" ++
    " 0 P E%s\n"

/-- Two transitions have to be held for the second year, but only one for both
years. -/
theorem bufferSizes_newYearText :
    ∃ db sizes sizes', MadeFrom twoYears [newYearText] db ∧
      db.window.start ≤ secondYear.start ∧ secondYear.stop ≤ db.window.stop ∧
      (db.bufferSizes secondYear).result = .ok sizes ∧
      (db.bufferSizes db.window).result = .ok sizes' ∧
      sizes.greatest = 2 ∧ sizes'.greatest = 1 ∧
      sizes.zones.get? "Z" = some ⟨2, 2000⟩ ∧
      sizes'.zones.get? "Z" = some ⟨1, 1999⟩ := by
  have hrun : (Source.empty.readTexts [] [newYearText]).fault = none ∧
      ∃ db ∈ (Database.ofSource twoYears
        (Source.empty.readTexts [] [newYearText]).source).result.toOption,
        db.window.start ≤ secondYear.start ∧
        secondYear.stop ≤ db.window.stop ∧
        ∃ sizes ∈ (db.bufferSizes secondYear).result.toOption,
          ∃ sizes' ∈ (db.bufferSizes db.window).result.toOption,
            sizes.greatest = 2 ∧ sizes'.greatest = 1 ∧
            sizes.zones.get? "Z" = some ⟨2, 2000⟩ ∧
            sizes'.zones.get? "Z" = some ⟨1, 1999⟩ := by
    decide +kernel
  obtain ⟨hread, hmade⟩ := hrun
  obtain ⟨db, hdb, hstart, hstop, hsizes⟩ := exists_eq_ok_of_toOption hmade
  obtain ⟨sizes, hsizes, hsizes'⟩ := exists_eq_ok_of_toOption hsizes
  obtain ⟨sizes', hsizes', hrest⟩ := exists_eq_ok_of_toOption hsizes'
  exact ⟨db, sizes, sizes', ⟨hread, hdb⟩, hstart, hstop, hsizes, hsizes', hrest⟩

end ZoneTables
