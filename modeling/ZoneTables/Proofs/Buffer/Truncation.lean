import ZoneTables.Proofs.Buffer.KeptEras
import ZoneTables.Proofs.Buffer.Overlap

/-!
# Sizes under two windows

A zone needs the same room over a window whether its tables were made for that
window or for a wider one, unless what the narrower one cuts off shows.  It
shows where the calendar years of local times, by which eras and rules are cut,
and the instants of the years that are replayed come apart, and where another
saving is looked up among the rules that are left.
-/

namespace ZoneTables

/-! ## What shows -/

/-- The instants that a replay over a window looks at. -/
def Window.seen (w : Window) : Stretch :=
  ⟨Year.firstSecond (w.start - 1) - yearSlack,
    Year.firstSecond (w.stop + 1) + yearSlack⟩

def Era.SavesApart (policies policies' : Policies) (era : Era)
    (bound : LocalTime) : Prop :=
  ∃ save save', era.SavesBefore policies bound save ∧
    era.SavesBefore policies' bound save' ∧ save ≠ save'

/-- Whether a replay over a window can tell a zone that was trimmed to it, which
has the spans `l`, from the same zone under a wider window, which has the spans
`l'`. -/
inductive TrimmingShows (w : Window) (policies policies' : Policies)
    (l l' : List Span) : Prop where
  /-- An era is cut off that ends in a year before the replay, but lasts into it
  in universal time. -/
  | cut {s : Span} {stop : Int} : s ∈ l' → s.era.ends.year < w.start - 1 →
    s.stop = some stop → w.seen.start < stop →
    TrimmingShows w policies policies' l l'
  /-- An era ends at another instant. -/
  | atEnd {s : Span} {stop : Int} {time : LocalTime} {offset : Int} :
    s ∈ l → s.stop = some stop → s.era.EndsAt policies' time offset →
    w.seen.Separates stop (time.unixSeconds - offset) →
    TrimmingShows w policies policies' l l'
  /-- An era that starts in the replay starts with another saving. -/
  | atStart {s : Span} {year : Int} {bounds : YearBounds} {time : LocalTime} :
    s ∈ l → w.start - 1 ≤ year → year ≤ w.stop →
    yearBounds? year = some bounds → s.startsIn bounds →
    s.localStart = some time →
    s.era.SavesApart policies policies' time.nextSecond →
    TrimmingShows w policies policies' l l'
  /-- The replay starts with another saving. -/
  | atFirst {s : Span} {date : Date} : s ∈ l → date.year = w.start - 1 →
    date.month = 1 → date.day = 1 → s.contains (date.unixSeconds 0) →
    s.era.SavesApart policies policies' ⟨date, 1⟩ →
    TrimmingShows w policies policies' l l'
  /-- A rule is kept in one of the databases only, in a year that is not one of
  an era which follows the rule but has to do with the era. -/
  | outside {s : Span} {year : Int} {bounds : YearBounds} {name : String}
      {rules rules' : List Rule} {r : Rule} :
    s ∈ l → w.start - 1 ≤ year → year ≤ w.stop →
    yearBounds? year = some bounds → s.isActive bounds → ¬ s.HasYear year →
    s.era.saving = .policy name → policies.get? name = some rules →
    policies'.get? name = some rules' → r.covers year →
    (r ∈ rules ↔ r ∉ rules') → TrimmingShows w policies policies' l l'
  /-- With a saving of the zone a rule takes effect days before or after all
  years of the replay. -/
  | far {s s' : Span} {year : Int} {bounds : YearBounds} {name : String}
      {rules : List Rule} {r : Rule} {time : LocalTime} {save : Int} :
    s ∈ l → w.start - 1 ≤ year → year ≤ w.stop →
    yearBounds? year = some bounds → s.isActive bounds →
    s.era.saving = .policy name → policies.get? name = some rules → r ∈ rules →
    r.covers year → r.occurrence? year = some time → s' ∈ l →
    s'.era.CanSave policies save →
    ¬ w.seen.Has
      (time.unixSeconds - r.frame.offset s.era.stdOffset save) →
    TrimmingShows w policies policies' l l'

theorem Window.reaches_seen {w : Window} {year : Int} {bounds : YearBounds}
    (hstart : w.start - 1 ≤ year) (hstop : year ≤ w.stop)
    (hbounds : yearBounds? year = some bounds) : w.seen.Reaches bounds := by
  have hfirst := Year.firstSecond_mono hstart
  have hnext := Year.firstSecond_succ year
  have hlast := Year.firstSecond_mono (by omega : year + 1 ≤ w.stop + 1)
  rw [yearBounds?_eq_some hbounds]
  refine ⟨?_, ?_, ?_⟩
  · show Year.firstSecond (w.start - 1) - yearSlack ≤
      Year.firstSecond year - yearSlack
    omega
  · show Year.firstSecond year < Year.firstSecond (year + 1)
    omega
  · show Year.firstSecond (year + 1) + yearSlack ≤
      Year.firstSecond (w.stop + 1) + yearSlack
    omega

section Made

variable {o : Options} {w' : Window} {s : Source} {db db' : Database}
  {zone : String} {eras eras' : List Era} {l l' : List Span}

/-- No offset is so great that an era which ends behind the years that matter
ends before the last instant of a replay. -/
theorem MadeOf.endsLate (h : MadeOf o s db)
    (hzone : db.zones.get? zone = some eras) (w : Window) :
    EndsLate db.policies w w.seen eras := by
  intro era hera hyear time offset hends
  have hoffset := h.natAbs_offset_le hzone hera hends
  have hseconds : time.seconds.natAbs ≤ Clock.greatest := by
    obtain ⟨date, _, rfl⟩ := Option.map_eq_some_iff.1 hends.localTime
    exact (h.era_isProper hzone era hera).ends.seconds.2
  have hdate := time.date.firstSecond_le time.seconds
  rw [Until.year_of_localTime? hends.localTime] at hdate
  have hfirst := Year.firstSecond_add_le hyear
  show Year.firstSecond (w.stop + 1) + 2 * 86400 ≤
    time.date.unixSeconds time.seconds - offset
  unfold Clock.greatest at hoffset hseconds
  omega

variable (h : MadeOf o s db) (h' : MadeOf { o with window := w' } s db')
  (hfrom : w'.start ≤ o.window.start) (hto : o.window.stop ≤ w'.stop)
  (hzone : db.zones.get? zone = some eras)
  (hzone' : db'.zones.get? zone = some eras')
  (hl : EraSpans db.policies none none eras l)

include h h' hfrom hto hzone hzone' hl

/-- A year of a span that is replayed is one of its era, and under the wider
window one of an era that saves alike. -/
theorem MadeOf.exists_eraYears {span : Span} (hspan : span ∈ l) {year : Int}
    (hstart : o.window.start - 1 ≤ year) (hstop : year ≤ o.window.stop)
    (hyear : span.HasYear year) :
    (∃ y, (span.era, y) ∈
        eraYears o.window.stop (o.window.start - 1) eras ∧
      y.first ≤ year ∧ year ≤ y.last) ∧
    ∃ era y, (era, y) ∈ eraYears w'.stop (w'.start - 1) eras' ∧
      era.saving = span.era.saving ∧ y.first ≤ year ∧ year ≤ y.last := by
  obtain ⟨y, hera, hfirst, hlast⟩ := hl.exists_eraYears hspan hyear hstop
    fun _ => hstart
  refine ⟨⟨y, hera, hfirst, hlast⟩, ?_⟩
  obtain ⟨old, rest, rfl, hold, halike⟩ :=
    h.exists_alikeUpTo h' hfrom hto hzone hzone'
  have horder := (h.pairwise_key hzone).imp fun hkey =>
    Until.year_le_of_key_lt hkey
  obtain ⟨startYear, hle, hmem⟩ := exists_eraYears_append
    (fun era hera => Int.le_of_lt (hold era hera).2)
    (by omega : w'.start - 1 ≤ o.window.start - 1)
  obtain ⟨era', y', hera', hsaving, hyears⟩ := halike.exists_eraYears horder
    h.stop_le hto hfirst hlast hstop hera hle
  exact ⟨era', y', hmem hera', hsaving, hyears⟩

/-- Before a local time of a replayed year that is one of its era, a span saves
apart under the two windows only if a rule of its policy is displaced under one
of them, or if both find no rule but their anchors. -/
theorem MadeOf.displaced_of_savesApart {span : Span} (hspan : span ∈ l)
    {bound : LocalTime} (hstart : o.window.start - 1 ≤ bound.date.year)
    (hstop : bound.date.year ≤ o.window.stop)
    (hyear : span.HasYear bound.date.year)
    (hapart : span.era.SavesApart db.policies db'.policies bound) :
    ∃ name resolved rules rules', span.era.saving = .policy name ∧
      s.ResolvesPolicy o name resolved ∧ db.policies.get? name = some rules ∧
      db'.policies.get? name = some rules' ∧
      ((∃ first ≤ bound.date.year, ∃ found other,
          Displaced (RuleSelection.full o.window resolved) rules first bound found
            other) ∨
        (∃ first ≤ bound.date.year, ∃ found other,
          Displaced (RuleSelection.full w' resolved) rules' first bound found
            other) ∨
        (latestRule? rules bound =
            some (anchorRule resolved (o.window.start - 1)) ∧
          latestRule? rules' bound =
            some (anchorRule resolved (w'.start - 1)))) := by
  obtain ⟨⟨y, hera, hfirst, hlast⟩, era', y', hera', hsaving', hfirst', hlast'⟩ :=
    h.exists_eraYears h' hfrom hto hzone hzone' hl hspan hstart hstop hyear
  obtain ⟨save, save', hsave, hsave', hne⟩ := hapart
  cases hsaving : span.era.saving with
  | standard =>
    simp only [Era.SavesBefore, hsaving] at hsave hsave'
    exact absurd (hsave.trans hsave'.symm) hne
  | fixed amount =>
    simp only [Era.SavesBefore, hsaving] at hsave hsave'
    exact absurd (hsave.trans hsave'.symm) hne
  | policy name =>
    rw [Era.savesBefore_policy hsaving] at hsave hsave'
    obtain ⟨rules, hrules, hsave⟩ := hsave
    obtain ⟨rules', hrules', hsave'⟩ := hsave'
    obtain ⟨resolved, hresolved, _⟩ := h.exists_selected hrules
    refine ⟨name, resolved, rules, rules', rfl, hresolved, hrules, hrules', ?_⟩
    rcases h.latestRule?_eq_or_displaced hzone hera hsaving hrules hresolved
      hfirst hlast with heq | hdisplaced
    · rcases h'.latestRule?_eq_or_displaced hzone' hera' (hsaving'.trans hsaving)
        hrules' hresolved hfirst' hlast' with heq' | hdisplaced'
      · right
        right
        rw [heq, heq']
        apply (RuleSelection.latestRule?_full_eq_or _ _ _ _).resolve_left
        intro hsame
        rw [savingAt?, heq, hsame, ← heq', ← savingAt?, hsave'] at hsave
        exact hne (Option.some.inj hsave).symm
      · exact .inr (.inl ⟨y'.first, hfirst', hdisplaced'⟩)
    · exact .inl ⟨y.first, hfirst, hdisplaced⟩

variable (hl' : EraSpans db'.policies none none eras' l')
  (hnot : ¬ TrimmingShows o.window db.policies db'.policies l l')

include hl' hnot

theorem MadeOf.exists_spansAlike :
    ∃ shift, SpansAlike db.policies db'.policies o.window.seen shift l l' := by
  obtain ⟨old, rest, rfl, hold, halike⟩ :=
    h.exists_alikeUpTo h' hfrom hto hzone hzone'
  obtain ⟨front, back, start, localStart, rfl, hfront, hback, hstart⟩ :=
    EraSpans.exists_append (fun era hmem => (hold era hmem).1) hl'
  have horder := (h.pairwise_key hzone).imp fun hkey =>
    Until.year_le_of_key_lt hkey
  have horder' := ((h'.pairwise_key hzone').imp fun hkey =>
    Until.year_le_of_key_lt hkey).sublist (List.sublist_append_right old rest)
  have hlate : EndsLate db'.policies o.window o.window.seen rest :=
    fun era hmem => h'.endsLate hzone' o.window era
      (List.mem_append_right _ hmem)
  have hcut : ∀ s ∈ front, ∀ stop, s.stop = some stop →
      stop ≤ o.window.seen.start := by
    intro s hs stop hstop
    by_contra hlt
    exact hnot (.cut (List.mem_append_left _ hs) (hold _ (hfront s hs).1).2 hstop
      (by omega))
  have hfirst : ∀ t, start = some t → t ≤ o.window.seen.start := by
    intro t ht
    rcases hstart with rfl | ⟨s, hs, hstop⟩
    · cases ht
    · exact hcut s hs t (hstop.trans ht)
  have hall : ∀ instant, o.window.seen.Has instant →
      ((none : Option Int).all fun t => decide (t ≤ instant)) =
        start.all fun t => decide (t ≤ instant) := by
    intro instant hin
    have := hin.1
    cases hs : start with
    | none => rfl
    | some t =>
      have := hfirst t hs
      simp
      omega
  obtain ⟨common, common', late, late', rfl, rfl, hcommon, hlate⟩ :=
    exists_common_of_alikeUpTo halike (h.endsLate hzone o.window) hlate horder
      horder' hl hback hall (fun _ => nofun)
      fun s hs stop time offset hstop hends hseparates =>
        hnot (.atEnd hs hstop hends hseparates)
  refine ⟨front.length, front, common, common', late, late', rfl, ?_, rfl,
    hcommon, ?_, hlate⟩
  · rw [List.append_assoc]
  · intro s hs instant hin hafter
    obtain ⟨stop, hstop⟩ := Option.isSome_iff_exists.1 (hfront s hs).2
    have := hcut s hs stop hstop
    have := Span.stopsAfter_iff.1 hafter stop hstop
    have := hin.1
    omega

omit hl' in
/-- In a year of the replay the two databases say the same of a span. -/
theorem MadeOf.agreesIn {span : Span} (hspan : span ∈ l) {year : Int}
    (hstart : o.window.start - 1 ≤ year) (hstop : year ≤ o.window.stop)
    {bounds : YearBounds} (hbounds : yearBounds? year = some bounds)
    (hactive : span.isActive bounds) :
    span.AgreesIn db.policies db'.policies o.window.seen
      (fun save => ∃ s ∈ l, s.era.CanSave db.policies save) bounds year where
  saves save hsave := ⟨span, hspan, hsave⟩
  start time save save' hin htime hsave hsave' := by
    by_contra hne
    exact hnot (.atStart hspan hstart hstop hbounds hin htime
      ⟨save, save', hsave, hsave', hne⟩)
  covering name rules rules' hsaving hrules hrules' := by
    apply h.filter_covers_eq h' hrules hrules' hfrom hstart
    intro resolved hresolved r hr hcovers
    by_cases hyear : span.HasYear year
    · -- both keep all rules of a year of the era
      obtain ⟨⟨y, hera, hfirst, hlast⟩, era', y', hera', hsaving', hfirst',
          hlast'⟩ :=
        h.exists_eraYears h' hfrom hto hzone hzone' hl hspan hstart hstop hyear
      have hkept := h.mem_of_covers hzone hera hsaving hrules hresolved hr
        hcovers hfirst hlast
      have hkept' := h'.mem_of_covers hzone' hera' (hsaving'.trans hsaving)
        hrules' hresolved hr hcovers hfirst' hlast'
      simp [hkept, hkept']
    · by_contra hdiffer
      exact hnot (.outside hspan hstart hstop hbounds hactive hyear hsaving hrules
        hrules' hcovers (by tauto))
  instant name rules r time save hsaving hrules hr hcovers htime hsave := by
    obtain ⟨s', hs', hsave⟩ := hsave
    by_contra hout
    exact hnot (.far hspan hstart hstop hbounds hactive hsaving hrules hr hcovers
      htime hs' hsave hout)

theorem MadeOf.ofYears_window_eq
    (hfault : ((⟨zone, l⟩ : ZoneReplay).window o.window).fault = none)
    (hfault' : ((⟨zone, l'⟩ : ZoneReplay).window o.window).fault = none) :
    BufferSize.ofYears (o.window.start - 1)
        ((⟨zone, l⟩ : ZoneReplay).window o.window).years =
      BufferSize.ofYears (o.window.start - 1)
        ((⟨zone, l'⟩ : ZoneReplay).window o.window).years := by
  obtain ⟨shift, hspans⟩ :=
    h.exists_spansAlike h' hfrom hto hzone hzone' hl hl' hnot
  apply ZoneReplay.ofYears_window_eq
    (S := fun save => ∃ s ∈ l, s.era.CanSave db.policies save) hspans h.start_lt
  · have hlt := h.start_lt
    have hslack : 0 < yearSlack := by decide
    have hle := Year.firstSecond_mono
      (by omega : o.window.start - 1 ≤ o.window.stop + 1)
    constructor
    · show Year.firstSecond (o.window.start - 1) - yearSlack ≤ _
      omega
    · show _ < Year.firstSecond (o.window.stop + 1) + yearSlack
      omega
  · intro date hyear hmonth hday s hs hcontains save save' hsave hsave'
    by_contra hne
    exact hnot (.atFirst hs hyear hmonth hday hcontains
      ⟨save, save', hsave, hsave', hne⟩)
  · exact fun s hs save hsave => ⟨s, hs, hsave⟩
  · intro year hstart hstop bounds hbounds
    refine ⟨Window.reaches_seen hstart hstop hbounds, fun s hs hactive => ?_⟩
    exact h.agreesIn h' hfrom hto hzone hzone' hl hnot hs hstart hstop hbounds
      hactive
  · exact hfault
  · exact hfault'

end Made

/-! ## Zones of one era -/

instance (seen : Stretch) (instant : Int) : Decidable (seen.Has instant) :=
  inferInstanceAs (Decidable (_ ∧ _))

def Rule.IsSeen (seen : Stretch) (stdOffset : Int) (rules : List Rule)
    (year : Int) (r : Rule) : Prop :=
  ∀ time ∈ r.occurrence? year, ∀ before ∈ rules,
    seen.Has (time.unixSeconds - r.frame.offset stdOffset before.save)

instance (seen : Stretch) (stdOffset : Int) (rules : List Rule) (year : Int)
    (r : Rule) : Decidable (r.IsSeen seen stdOffset rules year) :=
  inferInstanceAs (Decidable (∀ time ∈ r.occurrence? year, ∀ _ ∈ rules, _))

/-- Of a zone that keeps a single era, which follows rules, nothing shows but
an era that is cut off late, another saving before the window and a rule that
takes effect far from its years. -/
theorem not_trimmingShows_singleton {w : Window} {policies policies' : Policies}
    {span : Span} {l' : List Span} {name : String} {rules rules' : List Rule}
    (hstart : span.localStart = none) (hstop : span.stop = none)
    (hends : w.stop ≤ span.era.ends.year)
    (hsaving : span.era.saving = .policy name)
    (hrules : policies.get? name = some rules)
    (hrules' : policies'.get? name = some rules')
    (hcut : ∀ s ∈ l', s.era.ends.year < w.start - 1 → ∀ stop ∈ s.stop,
      stop ≤ w.seen.start)
    (hfirst : ∀ date : Date, date.year = w.start - 1 → date.month = 1 →
      date.day = 1 → savingAt? rules ⟨date, 1⟩ = savingAt? rules' ⟨date, 1⟩)
    (hnear : ∀ year, w.start - 1 ≤ year → year ≤ w.stop → ∀ r ∈ rules,
      r.covers year → r.IsSeen w.seen span.era.stdOffset rules year) :
    ¬ TrimmingShows w policies policies' [span] l' := by
  intro h
  cases h with
  | cut hs hyear hstop hlt =>
    have := hcut _ hs hyear _ hstop
    omega
  | atEnd hs hsome _ _ =>
    rw [List.mem_singleton.1 hs, hstop] at hsome
    cases hsome
  | atStart hs _ _ _ _ hsome _ =>
    rw [List.mem_singleton.1 hs, hstart] at hsome
    cases hsome
  | atFirst hs hyear hmonth hday _ hapart =>
    rw [List.mem_singleton.1 hs] at hapart
    obtain ⟨save, save', hsave, hsave', hne⟩ := hapart
    simp only [Era.savesBefore_policy hsaving, hrules, hrules',
      Option.some.injEq, exists_eq_left'] at hsave hsave'
    rw [hfirst _ hyear hmonth hday, hsave'] at hsave
    exact hne (Option.some.inj hsave).symm
  | outside hs _ hle _ _ hnot =>
    rw [List.mem_singleton.1 hs] at hnot
    exact absurd ⟨by simp [hstart], by omega⟩ hnot
  | far hs hfrom hto _ _ hname hget hr hcovers htime hs' hsave hout =>
    rw [List.mem_singleton.1 hs] at hname hout
    rw [List.mem_singleton.1 hs'] at hsave
    rw [hsaving] at hname
    cases hname
    rw [hrules] at hget
    cases hget
    simp only [Era.CanSave, hsaving, hrules, Option.some.injEq,
      exists_eq_left'] at hsave
    obtain ⟨r', hr', rfl⟩ := hsave
    exact hout (hnear _ hfrom hto _ hr hcovers _ htime r' hr')

/-! ## Databases -/

/-- A zone of a database that was made for a window needs the room over it that
it needs over it in a database made for a wider window, in the same year first,
unless what was trimmed shows. -/
theorem MadeFrom.size_eq_of_not_trimmingShows {o : Options} {w' : Window}
    {texts : List SourceText} {db db' : Database} (h : MadeFrom o texts db)
    (h' : MadeFrom { o with window := w' } texts db')
    (hfrom : w'.start ≤ o.window.start) (hto : o.window.stop ≤ w'.stop)
    {zone : String} {eras eras' : List Era}
    (hzone : db.zones.get? zone = some eras)
    (hzone' : db'.zones.get? zone = some eras') {l l' : List Span}
    (hl : spans zone db.policies eras = .ok l)
    (hl' : spans zone db'.policies eras' = .ok l') {sizes sizes' : BufferSizes}
    (hsizes : (db.bufferSizes o.window).result = .ok sizes)
    (hsizes' : (db'.bufferSizes o.window).result = .ok sizes')
    (hnot : ¬ TrimmingShows o.window db.policies db'.policies l l') :
    ∃ size, sizes.zones.get? zone = some size ∧
      sizes'.zones.get? zone = some size := by
  have hspans := (h.madeOf.measurable hzone).eraSpans hl
  have hspans' := (h'.madeOf.measurable hzone').eraSpans hl'
  obtain ⟨size, hsize⟩ := Database.exists_size_of_bufferSizes hsizes hzone
  obtain ⟨size', hsize'⟩ := Database.exists_size_of_bufferSizes hsizes' hzone'
  obtain ⟨_, hget, hmeasure⟩ := (Database.get?_of_bufferSizes hsizes).1 hsize
  obtain ⟨_, hget', hmeasure'⟩ := (Database.get?_of_bufferSizes hsizes').1 hsize'
  rw [hzone] at hget
  rw [hzone'] at hget'
  cases hget
  cases hget'
  obtain ⟨_, heq, hfault, rfl⟩ := measureZone_eq_ok.1 hmeasure
  obtain ⟨_, heq', hfault', rfl⟩ := measureZone_eq_ok.1 hmeasure'
  rw [hl] at heq
  rw [hl'] at heq'
  cases heq
  cases heq'
  refine ⟨_, hsize, ?_⟩
  rw [hsize', h.madeOf.ofYears_window_eq h'.madeOf hfrom hto hzone hzone' hspans
    hspans' hnot hfault hfault']

def LocalTime.firstOf1999 : LocalTime := ⟨.newYear 1999, 1⟩

def threeYears : Options := { twoYears with window := ⟨1999, 2002⟩ }

def oldEraText : SourceText where
  name := "t"
  text := "R P 1990 ma - Apr 1 0 1 D\n" ++
    "R P 1990 ma - Oct 1 0 0 S\n" ++
    "Z Z -5 - A 1998\n" ++
    " -5 P E%s\n"

theorem size_eq_oldEraText :
    ∃ db db' eras eras' l l' sizes sizes', MadeFrom twoYears [oldEraText] db ∧
      MadeFrom threeYears [oldEraText] db' ∧
      threeYears.window.start ≤ twoYears.window.start ∧
      twoYears.window.stop ≤ threeYears.window.stop ∧
      db.zones.get? "Z" = some eras ∧ db'.zones.get? "Z" = some eras' ∧
      spans "Z" db.policies eras = .ok l ∧
      spans "Z" db'.policies eras' = .ok l' ∧
      l.length = 1 ∧ l'.length = 2 ∧
      (db.bufferSizes twoYears.window).result = .ok sizes ∧
      (db'.bufferSizes twoYears.window).result = .ok sizes' ∧
      ¬ TrimmingShows twoYears.window db.policies db'.policies l l' ∧
      ∃ size, sizes.zones.get? "Z" = some size ∧
        sizes'.zones.get? "Z" = some size := by
  have hrun : (Source.empty.readTexts [] [oldEraText]).fault = none ∧
      (∃ db ∈ (Database.ofSource twoYears
        (Source.empty.readTexts [] [oldEraText]).source).result.toOption,
        (∃ _ ∈ (db.bufferSizes twoYears.window).result.toOption, True) ∧
        ∃ eras ∈ db.zones.get? "Z",
          ∃ l ∈ (spans "Z" db.policies eras).toOption,
            ∃ rules ∈ db.policies.get? "P", l.length = 1 ∧
              savingAt? rules .firstOf1999 = some 0 ∧
              l.all fun span => decide (span.localStart = none ∧
                span.stop = none ∧ 2002 ≤ span.era.ends.year ∧
                span.era.saving = .policy "P" ∧
                ∀ year ∈ ([1999, 2000, 2001, 2002] : List Int), ∀ r ∈ rules,
                  r.covers year → r.IsSeen twoYears.window.seen
                    span.era.stdOffset rules year)) ∧
      ∃ db ∈ (Database.ofSource threeYears
        (Source.empty.readTexts [] [oldEraText]).source).result.toOption,
        (∃ _ ∈ (db.bufferSizes twoYears.window).result.toOption, True) ∧
        ∃ eras ∈ db.zones.get? "Z",
          ∃ l ∈ (spans "Z" db.policies eras).toOption,
            ∃ rules ∈ db.policies.get? "P", l.length = 2 ∧
              savingAt? rules .firstOf1999 = some 0 ∧
              l.all fun s => decide (s.era.ends.year < 1999 →
                ∀ stop ∈ s.stop, stop ≤ twoYears.window.seen.start) := by
    decide +kernel
  obtain ⟨hread, hmade, hmade'⟩ := hrun
  obtain ⟨db, hdb, hsizes, eras, hzone, hspans⟩ := exists_eq_ok_of_toOption hmade
  obtain ⟨sizes, hsizes, _⟩ := exists_eq_ok_of_toOption hsizes
  obtain ⟨l, hl, rules, hrules, hlength, hsave, hspan⟩ :=
    exists_eq_ok_of_toOption hspans
  obtain ⟨db', hdb', hsizes', eras', hzone', hspans'⟩ :=
    exists_eq_ok_of_toOption hmade'
  obtain ⟨sizes', hsizes', _⟩ := exists_eq_ok_of_toOption hsizes'
  obtain ⟨l', hl', rules', hrules', hlength', hsave', hcut⟩ :=
    exists_eq_ok_of_toOption hspans'
  simp only [List.all_eq_true, decide_eq_true_eq] at hspan hcut
  obtain ⟨span, rfl⟩ := List.length_eq_one_iff.1 hlength
  obtain ⟨hstart, hstop, hends, hsaving, hnear⟩ := hspan span List.mem_cons_self
  have hnot : ¬ TrimmingShows twoYears.window db.policies db'.policies [span]
      l' := by
    apply not_trimmingShows_singleton hstart hstop hends hsaving hrules hrules'
      hcut
    · intro date hyear hmonth hday
      cases date
      cases hyear
      cases hmonth
      cases hday
      exact hsave.trans hsave'.symm
    · intro year hfrom hto
      apply hnear year
      have : 1999 ≤ year := hfrom
      have : year ≤ 2002 := hto
      simp
      omega
  exact ⟨db, db', eras, eras', [span], l', sizes, sizes', ⟨hread, hdb⟩,
    ⟨hread, hdb'⟩, by decide, by decide, hzone, hzone', hl, hl', hlength,
    hlength', hsizes, hsizes', hnot,
    MadeFrom.size_eq_of_not_trimmingShows ⟨hread, hdb⟩ ⟨hread, hdb'⟩ (by decide)
      (by decide) hzone hzone' hl hl' hsizes hsizes' hnot⟩

/-- An era that ends in 1998 by its own clock, but four hours after the start
of 1999 in universal time. -/
def lateEndText : SourceText where
  name := "t"
  text := "R P 1990 ma - Apr 1 0 1 D\n" ++
    "R P 1990 ma - Oct 1 0 0 S\n" ++
    "Z Z -5 - A 1998 Dec 31 23:00\n" ++
    " -5 P E%s\n"

/-- The start of the second era counts in 1999 only if the first era is kept. -/
theorem size_ne_lateEndText :
    ∃ db db' sizes sizes', MadeFrom twoYears [lateEndText] db ∧
      MadeFrom threeYears [lateEndText] db' ∧
      (db.bufferSizes twoYears.window).result = .ok sizes ∧
      (db'.bufferSizes twoYears.window).result = .ok sizes' ∧
      sizes.zones.get? "Z" = some ⟨2, 1999⟩ ∧
      sizes'.zones.get? "Z" = some ⟨3, 1999⟩ := by
  have hrun : (Source.empty.readTexts [] [lateEndText]).fault = none ∧
      (∃ db ∈ (Database.ofSource twoYears
        (Source.empty.readTexts [] [lateEndText]).source).result.toOption,
        ∃ sizes ∈ (db.bufferSizes twoYears.window).result.toOption,
          sizes.zones.get? "Z" = some ⟨2, 1999⟩) ∧
      ∃ db ∈ (Database.ofSource threeYears
        (Source.empty.readTexts [] [lateEndText]).source).result.toOption,
        ∃ sizes ∈ (db.bufferSizes twoYears.window).result.toOption,
          sizes.zones.get? "Z" = some ⟨3, 1999⟩ := by
    decide +kernel
  obtain ⟨hread, hmade, hmade'⟩ := hrun
  obtain ⟨db, hdb, hsizes⟩ := exists_eq_ok_of_toOption hmade
  obtain ⟨sizes, hsizes, hsize⟩ := exists_eq_ok_of_toOption hsizes
  obtain ⟨db', hdb', hsizes'⟩ := exists_eq_ok_of_toOption hmade'
  obtain ⟨sizes', hsizes', hsize'⟩ := exists_eq_ok_of_toOption hsizes'
  exact ⟨db, db', sizes, sizes', ⟨hread, hdb⟩, ⟨hread, hdb'⟩, hsizes, hsizes',
    hsize, hsize'⟩

end ZoneTables
