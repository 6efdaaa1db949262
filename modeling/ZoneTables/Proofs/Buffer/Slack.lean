import ZoneTables.Compilation
import ZoneTables.Proofs.Buffer.Chaining
import ZoneTables.Proofs.Buffer.LatestTimes
import ZoneTables.Proofs.Buffer.Ties
import ZoneTables.Proofs.Document.Uncoded

/-!
# What the slack of years covers

Only spans that come within two days of a year have to do with it.  A rule can
take effect further away from the year that it is reckoned to: its time of day
can be some days late, and its era can be behind universal time.  If its span
does not come near the year, it is counted in no year at all.
-/

namespace ZoneTables

/-! ## Occurrences at an instant -/

/-- Whether a rule of a span takes effect in the span at an instant, in a year
that it covers.  The rule goes by a clock without daylight saving. -/
structure Span.TakesEffect (s : Span) (year : Int) (k : Nat) (r : Rule)
    (instant : Int) : Prop where
  policy : ∃ policy, s.policy = some policy ∧ policy.rules[k]? = some r
  covers : r.covers year
  frame : r.frame ≠ .wall
  occurs : ∃ time, r.occurrence? year = some time ∧
    instant = time.unixSeconds - r.frame.offset s.era.stdOffset 0
  contains : s.contains instant

instance (s : Span) (year : Int) (k : Nat) (r : Rule) (instant : Int) :
    Decidable (s.TakesEffect year k r instant) :=
  decidable_of_iff
    ((∃ policy ∈ s.policy, policy.rules[k]? = some r) ∧ r.covers year ∧
      r.frame ≠ .wall ∧ (∃ time ∈ r.occurrence? year,
        instant = time.unixSeconds - r.frame.offset s.era.stdOffset 0) ∧
      s.contains instant)
    ⟨fun h => ⟨h.1, h.2.1, h.2.2.1, h.2.2.2.1, h.2.2.2.2⟩,
      fun h => ⟨h.policy, h.covers, h.frame, h.occurs, h.contains⟩⟩

theorem TimeFrame.offset_eq {frame : TimeFrame} (h : frame ≠ .wall)
    (stdOffset save : Int) :
    frame.offset stdOffset save = frame.offset stdOffset 0 := by
  cases frame with
  | wall => exact absurd rfl h
  | standard => rfl
  | utc => rfl

/-- A pass finds an occurrence that is in its span whatever was saved before. -/
theorem Pending.exists_mem_passed (carried : Int) {p : Pending}
    {ps : List Pending} (hp : p ∈ ps)
    (hin : ∀ save, p.active.span.contains (p.candidate save).instant) :
    ∀ setter previous,
      ∃ x ∈ passed carried setter previous ps, x.pending = p := by
  induction ps with
  | nil => cases hp
  | cons q rest ih =>
    intro setter previous
    obtain ⟨y, hy⟩ : ∃ y : Passed, y = ⟨q, q.setterBefore setter previous⟩ :=
      ⟨_, rfl⟩
    rcases List.mem_cons.1 hp with rfl | hp
    · have hcontains : p.active.span.contains (y.candidate carried).instant := by
        rw [hy]
        exact hin _
      rw [passed_cons_of_contains hy hcontains]
      exact ⟨y, List.mem_cons_self, by rw [hy]⟩
    · by_cases hq : q.active.span.contains (y.candidate carried).instant
      · rw [passed_cons_of_contains hy hq]
        obtain ⟨x, hx, hpending⟩ := ih hp _ _
        exact ⟨x, List.mem_cons_of_mem _ hx, hpending⟩
      · rw [passed_cons_of_not_contains hy hq]
        exact ih hp _ _

namespace ZoneReplay

variable {z : ZoneReplay} {year save : Int} {bounds : YearBounds}
  {cs : List Candidate} {s : Span} {r : Rule} {i k : Nat} {instant : Int}

def Counts (z : ZoneReplay) (year save : Int) (i k : Nat) : Prop :=
  ∃ starts ps, z.occurrences year = .ok (starts, ps) ∧
    ∃ x ∈ Pending.pass save ps, x.pending.active.index = i ∧ x.pending.index = k

theorem exists_pending_of_collect {active : List (Span × Nat)}
    {starts : List Candidate} {pending : List Pending}
    (hr : z.collect year bounds active = .ok (starts, pending)) :
    ∀ p ∈ active, ∃ a qs, z.activate bounds p.2 p.1 = .ok a ∧
      a.pending year = .ok qs ∧ ∀ q ∈ qs, q ∈ pending := by
  induction active generalizing starts pending with
  | nil => exact List.forall_mem_nil _
  | cons p active ih =>
    rw [collect] at hr
    obtain ⟨a, ha, hr⟩ := except_bind_eq_ok.1 hr
    obtain ⟨qs, hqs, hr⟩ := except_bind_eq_ok.1 hr
    obtain ⟨⟨more, rest⟩, hmore, heq⟩ := except_bind_eq_ok.1 hr
    cases heq
    refine List.forall_mem_cons.2 ⟨⟨a, qs, ha, hqs, ?_⟩, fun p hp => ?_⟩
    · exact fun q hq => List.mem_append_left _ hq
    · obtain ⟨a, qs, ha, hqs, hmem⟩ := ih hmore p hp
      exact ⟨a, qs, ha, hqs, fun q hq => List.mem_append_right _ (hmem q hq)⟩

theorem Counts.isActive (h : z.Counts year save i k)
    (hbounds : yearBounds? year = some bounds) (hs : z.spans[i]? = some s) :
    s.isActive bounds := by
  obtain ⟨starts, ps, hps, x, hx, rfl, _⟩ := h
  unfold occurrences at hps
  rw [hbounds] at hps
  obtain ⟨⟨starts', pending⟩, hcollect, heq⟩ := except_bind_eq_ok.1 hps
  cases heq
  have hmem : x.pending ∈ pending := mem_sortByKey.1
    ((Pending.pending_passed_sublist save none none _).subset
      (List.mem_map_of_mem hx))
  obtain ⟨p, hp, a, qs, ha, hqs, hq⟩ :=
    (exists_of_collect hcollect).2 _ hmem
  obtain ⟨hindex, hspan, _⟩ := eq_of_activate ha
  obtain ⟨hat, hactive⟩ := List.mem_filter.1 hp
  rw [List.mem_zipIdx_iff_getElem?] at hat
  rw [ActiveSpan.active_of_pending hqs _ hq, hindex, hat] at hs
  cases hs
  exact hactive

theorem Collects.exists_pending_of_isActive {starts : List Candidate}
    {pending : List Pending} (h : z.Collects year starts pending)
    (hbounds : yearBounds? year = some bounds) (hs : z.spans[i]? = some s)
    (ht : s.TakesEffect year k r instant) (hactive : s.isActive bounds) :
    ∃ p ∈ pending, p.active.span = s ∧ p.active.index = i ∧ p.index = k ∧
      ∀ before, p.candidate before = ⟨instant, s.policyName, .rule k, r.save⟩ := by
  obtain ⟨bounds', hbounds', _, hcollect⟩ := h
  cases hbounds.symm.trans hbounds'
  have hmem : (s, i) ∈ z.spans.zipIdx.filter fun p => p.1.isActive bounds :=
    List.mem_filter.2 ⟨List.mem_zipIdx_iff_getElem?.2 hs, hactive⟩
  obtain ⟨a, qs, ha, hqs, hsub⟩ := exists_pending_of_collect hcollect _ hmem
  obtain ⟨hindex, rfl, _⟩ := eq_of_activate ha
  obtain ⟨policy, hpolicy, hrule⟩ := ht.policy
  obtain ⟨time, htime, rfl⟩ := ht.occurs
  rcases ActiveSpan.eq_of_pending hqs with ⟨hnone, _⟩ | ⟨policy', hsome, hall⟩
  · rw [hpolicy] at hnone
    cases hnone
  · cases hpolicy.symm.trans hsome
    have hcovering : (r, k) ∈ covering year policy.rules :=
      mem_covering_iff.2 ⟨hrule, ht.covers⟩
    obtain ⟨q, hq, time', htime', rfl⟩ := forall₂_exists_left hall.flip hcovering
    cases htime.symm.trans htime'
    refine ⟨_, hsub _ hq, rfl, hindex, rfl, fun before => ?_⟩
    unfold Pending.candidate
    rw [TimeFrame.offset_eq ht.frame]

theorem exists_passed_of_isActive (h : z.candidates year save = .ok cs)
    (hbounds : yearBounds? year = some bounds) (hs : z.spans[i]? = some s)
    (ht : s.TakesEffect year k r instant) (hactive : s.isActive bounds) :
    ∃ starts ps, z.occurrences year = .ok (starts, ps) ∧
      ∃ x ∈ Pending.pass save ps, x.pending.active.index = i ∧
        x.pending.index = k ∧
        x.candidate save = ⟨instant, s.policyName, .rule k, r.save⟩ := by
  obtain ⟨starts, pending, hcollects, _⟩ := candidates_eq_ok.1 h
  obtain ⟨p, hp, hspan, hindex, hk, hcandidate⟩ :=
    hcollects.exists_pending_of_isActive hbounds hs ht hactive
  obtain ⟨x, hx, rfl⟩ := Pending.exists_mem_passed save
    (mem_sortByKey.2 hp : p ∈ Pending.inOrder pending)
    (fun before => by
      rw [hcandidate, hspan]
      exact ht.contains) none none
  exact ⟨starts, _, hcollects.occurrences_eq, x, hx, hindex, hk, hcandidate _⟩

end ZoneReplay

/-! ## Spans near a year -/

/-- How far a rule on a clock without daylight saving puts its time behind the
start of its day in universal time. -/
def Span.lateness (s : Span) (r : Rule) : Int :=
  r.time - r.frame.offset s.era.stdOffset 0

section Near

variable {s : Span} {year : Int} {k : Nat} {r : Rule} {instant : Int}

theorem Span.TakesEffect.within (h : s.TakesEffect year k r instant)
    (hyear : ∀ time, r.occurrence? year = some time → time.date.year = year) :
    Year.firstSecond year + s.lateness r ≤ instant ∧
      instant ≤ Year.firstSecond (year + 1) - daySeconds + s.lateness r := by
  obtain ⟨time, htime, rfl⟩ := h.occurs
  have hdate := hyear time htime
  obtain ⟨date, _, rfl⟩ := Option.map_eq_some_iff.1 htime
  dsimp only at hdate
  have hfirst := date.firstSecond_le r.time
  have hlast := date.le_firstSecond r.time
  rw [hdate] at hfirst hlast
  unfold lateness LocalTime.unixSeconds daySeconds
  dsimp only
  omega

theorem Span.TakesEffect.isActive {bounds : YearBounds}
    (h : s.TakesEffect year k r instant)
    (hyear : ∀ time, r.occurrence? year = some time → time.date.year = year)
    (hbounds : yearBounds? year = some bounds)
    (hearly : -yearSlack ≤ s.lateness r)
    (hlate : s.lateness r < yearSlack + daySeconds) : s.isActive bounds := by
  obtain ⟨hfirst, hlast⟩ := h.within hyear
  rw [yearBounds?_eq_some hbounds]
  apply isActive_of_near (by dsimp only; omega) (by dsimp only; omega) h.contains

end Near

/-! ## Compiled texts -/

theorem TimeWidth.bounds_of_encode {w : TimeWidth} {seconds code : Int}
    (hminutes : w.granularity = 60) (h : w.encode seconds = some code) :
    60 * (w.least - 1) < seconds ∧ seconds < 60 * (w.greatest + 1) := by
  have hdiv := Int.mul_tdiv_add_tmod seconds 60
  have hfrom := Int.lt_tmod_of_pos seconds (b := 60) (by decide)
  have hto := Int.tmod_lt_of_pos seconds (b := 60) (by decide)
  unfold encode at h
  rw [hminutes] at h
  dsimp only at h
  split at h
  · omega
  · cases h

/-- Where times are in minutes, no rule is two days early, and only a rule in
standard time can be three days late. -/
theorem Widths.lateness_bounds {scope : Scope} (hscope : scope ≠ .complete)
    {s : Span} {r : Rule} {ruleCodes : RuleCodes} {eraCodes : EraCodes}
    (hrule : scope.widths.CodesRule r ruleCodes)
    (hera : scope.widths.CodesEra s.era eraCodes) (hframe : r.frame ≠ .wall) :
    -yearSlack ≤ s.lateness r ∧
      (r.frame = .utc → s.lateness r < yearSlack + daySeconds) := by
  have htime : -60 < r.time ∧ r.time < 229560 := by
    cases scope with
    | complete => exact absurd rfl hscope
    | basic => exact TimeWidth.bounds_of_encode rfl hrule.time
    | extended => exact TimeWidth.bounds_of_encode rfl hrule.time
  have hoffset : -114360 < s.era.stdOffset ∧ s.era.stdOffset < 114360 := by
    cases scope with
    | complete => exact absurd rfl hscope
    | basic => exact TimeWidth.bounds_of_encode rfl hera.stdOffset
    | extended => exact TimeWidth.bounds_of_encode rfl hera.stdOffset
  unfold Span.lateness TimeFrame.offset yearSlack daySeconds
  cases hclock : r.frame with
  | wall => exact absurd hclock hframe
  | standard => exact ⟨by dsimp only; omega, nofun⟩
  | utc => exact ⟨by dsimp only; omega, fun _ => by dsimp only; omega⟩

theorem hasCodes_of_compile {o : CompileOptions} {texts : List SourceText}
    {compiled : Compiled} {db : Database}
    (h : (compile o texts).result = .ok compiled)
    (hmade : MadeFrom o.options texts db) : db.HasCodes := by
  unfold compile Compilation.ofSource at h
  dsimp only at h
  rw [hmade.read] at h
  dsimp only at h
  rw [hmade.made] at h
  dsimp only at h
  split at h
  · cases h
  · split at h
    · cases h
    · split at h
      · cases h
      · rename_i document hdocument
        have hnone := failure?_eq_none_iff.2 ⟨document, hdocument⟩
        rw [Document.failure?_ofDatabase, List.findSome?_eq_none_iff] at hnone
        rw [Database.hasCodes_iff]
        exact fun v hv => CodedValue.fault?_eq_none_iff.1 (hnone v hv)

/-- In compiled texts a rule on a clock without daylight saving that takes effect
in a span is counted in its year exactly if the span is active in it, and is then
a candidate.  It is if the rule takes effect within two days of the year, so that
it cannot be missed unless it is more than two days early or three days late on
the clock of universal time.  In minutes only rules in standard time can be. -/
theorem ZoneReplay.counts_iff_isActive {o : CompileOptions}
    {texts : List SourceText} {compiled : Compiled} {db : Database}
    {zone : String} {z : ZoneReplay} {year save : Int} {cs : List Candidate}
    {bounds : YearBounds} {s : Span} {i k : Nat} {r : Rule} {instant : Int}
    (hcompile : (compile o texts).result = .ok compiled)
    (hmade : MadeFrom o.options texts db) (hz : db.replay? zone = some z)
    (hcs : z.candidates year save = .ok cs)
    (hbounds : yearBounds? year = some bounds) (hs : z.spans[i]? = some s)
    (ht : s.TakesEffect year k r instant) :
    (z.Counts year save i k ↔ s.isActive bounds) ∧
      (s.isActive bounds → ⟨instant, s.policyName, .rule k, r.save⟩ ∈ cs) ∧
      (bounds.start - yearSlack ≤ instant → instant < bounds.stop + yearSlack →
        s.isActive bounds) ∧
      (-yearSlack ≤ s.lateness r → s.lateness r < yearSlack + daySeconds →
        s.isActive bounds) ∧
      (o.options.scope ≠ .complete →
        (r.frame = .standard → s.lateness r < yearSlack + daySeconds) →
        s.isActive bounds) := by
  obtain ⟨eras, hzone, hl, _⟩ := Database.exists_spans_of_replay? hz
  obtain ⟨policy, hpolicy, hat⟩ := ht.policy
  have hmem : s ∈ z.spans := List.mem_of_getElem? hs
  have hr : r ∈ policy.rules := List.mem_of_getElem? hat
  have hget := get?_of_mem_spansFrom hl s hmem policy hpolicy
  have hnear : -yearSlack ≤ s.lateness r →
      s.lateness r < yearSlack + daySeconds → s.isActive bounds :=
    ht.isActive (fun _ => hmade.madeOf.year_of_occurrence? hget hr) hbounds
  refine ⟨⟨fun h => h.isActive hbounds hs, fun hactive => ?_⟩,
    fun hactive => ?_, fun hfirst hlast => isActive_of_near hfirst hlast ht.contains,
    hnear, fun hscope hstandard => ?_⟩
  · obtain ⟨starts, ps, hps, x, hx, hi, hk, _⟩ :=
      exists_passed_of_isActive hcs hbounds hs ht hactive
    exact ⟨starts, ps, hps, x, hx, hi, hk⟩
  · obtain ⟨starts, ps, hps, x, hx, _, _, hcandidate⟩ :=
      exists_passed_of_isActive hcs hbounds hs ht hactive
    rw [(perm_of_occurrences hcs hps).mem_iff, ← hcandidate]
    exact List.mem_append_right _ (List.mem_map_of_mem hx)
  -- what is written has codes, and these bound how far a rule can lie from its year
  · have hcodes := hasCodes_of_compile hcompile hmade
    have hwidths : db.widths = o.options.scope.widths := hmade.madeOf.widths
    obtain ⟨ruleCodes, hrule⟩ := hcodes.rule _ _ hget r hr
    obtain ⟨⟨era, hera, hof⟩, _⟩ :=
      (spans_of_measurable (hmade.madeOf.measurable hzone) hl).1 s hmem
    rw [← hof.era_eq] at hera
    obtain ⟨eraCodes, hera⟩ := hcodes.era _ _ hzone s.era hera
    rw [hwidths] at hrule hera
    obtain ⟨hearly, hlate⟩ := Widths.lateness_bounds hscope hrule hera ht.frame
    refine hnear hearly ?_
    cases hframe : r.frame with
    | wall => exact absurd hframe ht.frame
    | standard => exact hstandard hframe
    | utc => exact hlate hframe

def compileTwoYears : CompileOptions := ⟨twoYears, "", 8, false⟩

/-- A rule that takes effect in the last half hour of the two days behind its year,
in an era that starts half an hour before. -/
def lastHalfHourText : SourceText where
  name := "t"
  text := "R P 2000 o - Dec 31 63:30s 1 D\n" ++
    "Z Z -8 - A 2001 Jan 2 23u\n" ++
    " -8 P E%s\n"

theorem counts_iff_isActive_lastHalfHourText :
    ∃ compiled db z cs s r,
      (compile compileTwoYears [lastHalfHourText]).result = .ok compiled ∧
      MadeFrom twoYears [lastHalfHourText] db ∧ db.replay? "Z" = some z ∧
      z.candidates 2000 0 = .ok cs ∧ z.spans[1]? = some s ∧
      s.TakesEffect 2000 1 r 978478200 ∧ z.Counts 2000 0 1 1 ∧
      ⟨978478200, "P", .rule 1, 3600⟩ ∈ cs := by
  have hcompile :
      (compile compileTwoYears [lastHalfHourText]).result.toOption.isSome := by
    decide +kernel
  have hrun : (Source.empty.readTexts [] [lastHalfHourText]).fault = none ∧
      ∃ db ∈ (Database.ofSource twoYears
        (Source.empty.readTexts [] [lastHalfHourText]).source).result.toOption,
      ∃ z ∈ db.replay? "Z", (z.candidates 2000 0).toOption.isSome ∧
      ∃ bounds ∈ yearBounds? 2000, ∃ s ∈ z.spans[1]?, ∃ policy ∈ s.policy,
      ∃ r ∈ policy.rules[1]?, s.TakesEffect 2000 1 r 978478200 ∧
      s.policyName = "P" ∧ r.save = 3600 ∧
      s.lateness r < yearSlack + daySeconds := by
    decide +kernel
  obtain ⟨compiled, hcompile⟩ := Option.isSome_iff_exists.1 hcompile
  obtain ⟨hread, db, hdb, z, hz, hcs, bounds, hbounds, s, hs, _, _, r, _, ht,
    hname, hsave, hlate⟩ := hrun
  obtain ⟨cs, hcs⟩ := Option.isSome_iff_exists.1 hcs
  rw [except_toOption_eq_some] at hcompile hcs
  rw [Option.mem_def, except_toOption_eq_some] at hdb
  obtain ⟨hcounts, hmem, _, _, hactive⟩ := ZoneReplay.counts_iff_isActive hcompile
    ⟨hread, hdb⟩ hz hcs hbounds hs ht
  have hactive := hactive (by decide) fun _ => hlate
  have hmem := hmem hactive
  rw [hname, hsave] at hmem
  exact ⟨compiled, db, z, cs, s, r, hcompile, ⟨hread, hdb⟩, hz, hcs, hs, ht,
    hcounts.2 hactive, hmem⟩

/-- A zone twelve hours behind universal time, whose second era starts when the two
days behind 2000 are over, and two rules of 2000 that take effect in it later on
that day. -/
def threeDaysLateText : SourceText where
  name := "t"
  text := "R P 2000 o - Dec 31 63:30s 1 D\n" ++
    "R P 2000 o - Dec 31 63:45s 0 S\n" ++
    "Z Z -12 - A 2001 Jan 3 0u\n" ++
    " -12 P E%s\n"

/-- The rules are counted neither in 2000, which does not look at their era, nor in
any other year, which they do not cover. -/
theorem not_counts_threeDaysLateText :
    ∃ compiled db sizes z s r,
      (compile compileTwoYears [threeDaysLateText]).result = .ok compiled ∧
      MadeFrom twoYears [threeDaysLateText] db ∧
      (db.bufferSizes db.window).result = .ok sizes ∧
      sizes.zones.get? "Z" = some ⟨1, 1999⟩ ∧
      db.replay? "Z" = some z ∧ z.initialSave 1999 = .ok 0 ∧
      z.Enters 1999 0 2000 0 ∧ z.candidates 2000 0 = .ok [] ∧
      z.spans[1]? = some s ∧ s.TakesEffect 2000 1 r 978492600 ∧
      ¬ z.Counts 2000 0 1 1 := by
  have hcompile :
      (compile compileTwoYears [threeDaysLateText]).result.toOption.isSome ∧
      ∃ db ∈ (Database.ofSource twoYears
        (Source.empty.readTexts [] [threeDaysLateText]).source).result.toOption,
      ∃ sizes ∈ (db.bufferSizes db.window).result.toOption,
      sizes.zones.get? "Z" = some ⟨1, 1999⟩ := by
    decide +kernel
  have hrun : (Source.empty.readTexts [] [threeDaysLateText]).fault = none ∧
      ∃ db ∈ (Database.ofSource twoYears
        (Source.empty.readTexts [] [threeDaysLateText]).source).result.toOption,
      ∃ z ∈ db.replay? "Z", (z.initialSave 1999).toOption = some 0 ∧
      (z.candidates 1999 0).toOption = some [] ∧
      (z.candidates 2000 0).toOption = some [] ∧
      ∃ bounds ∈ yearBounds? 2000, ∃ s ∈ z.spans[1]?, ∃ policy ∈ s.policy,
      ∃ r ∈ policy.rules[1]?, s.TakesEffect 2000 1 r 978492600 ∧
      ¬ s.isActive bounds := by
    decide +kernel
  obtain ⟨hcompile, db, hdb, sizes, hsizes, hpeak⟩ := hcompile
  obtain ⟨compiled, hcompile⟩ := Option.isSome_iff_exists.1 hcompile
  obtain ⟨hread, db', hdb', z, hz, hsave, hbefore, hcs, bounds, hbounds, s, hs,
    _, _, r, _, ht, hout⟩ := hrun
  cases hdb.symm.trans hdb'
  rw [except_toOption_eq_some] at hcompile hsave hbefore hcs
  rw [Option.mem_def, except_toOption_eq_some] at hdb hsizes
  have henters : z.Enters 1999 0 (1999 + 1) (Candidate.saveAfter 0 []) :=
    .step .start hbefore
  exact ⟨compiled, db, sizes, z, s, r, hcompile, ⟨hread, hdb⟩, hsizes, hpeak, hz,
    hsave, henters, hcs, hs, ht, fun h => hout (h.isActive hbounds hs)⟩

end ZoneTables
