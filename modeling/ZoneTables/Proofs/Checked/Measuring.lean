import ZoneTables.Proofs.Buffer.KeptEras
import ZoneTables.Proofs.Buffer.Ties
import ZoneTables.Proofs.Checked.Making

/-!
# Measuring in words of 32 bits

The buffer is measured with the years next to the window, and with offsets that
are a standard offset and a saving at most.  A saving is looked up among the rules
of a policy or carried along the replay, so it never exceeds an amount that is
read.
-/

namespace ZoneTables.Checked

variable {α β : Type}

/-! ## Computations that may find a fault -/

abbrev Measuring := ExceptT BufferError Checked

def settled (x : Except BufferError α) : Measuring α := ExceptT.mk (.ok x)

def checked (x : Checked α) : Measuring α := ExceptT.lift x

theorem settled_bind {x : Except BufferError α} {f : α → Measuring β}
    {g : α → Except BufferError β} (h : ∀ a, x = .ok a → f a = settled (g a)) :
    (settled x >>= f) = settled (x >>= g) := by
  cases x with
  | error e => rfl
  | ok a => exact h a rfl

theorem checked_bind {x : Checked α} {a : α} {f : α → Measuring β} (h : x = .ok a) :
    (checked x >>= f) = f a := by
  rw [h]
  rfl

theorem mapM_settled {f : α → Measuring β} {g : α → Except BufferError β} :
    ∀ {l : List α}, (∀ a ∈ l, f a = settled (g a)) → l.mapM f = settled (l.mapM g)
  | [], _ => rfl
  | a :: l, h => by
    rw [List.forall_mem_cons] at h
    rw [List.mapM_cons, List.mapM_cons, h.1]
    refine settled_bind fun b _ => ?_
    rw [mapM_settled h.2]
    exact settled_bind fun bs _ => rfl

/-! ## Spans -/

def lastBeforeTime? (rule : Rule) (bound : LocalTime) :
    Checked (Option LocalTime) := do
  let last := min rule.toYear bound.date.year
  let before ← sub last 1
  [last, before].findSomeM? fun year =>
    if rule.fromYear ≤ year then
      return (← occurrence? rule year).filter fun time => decide (time < bound)
    else return none

def latestRule? (rules : List Rule) (bound : LocalTime) : Checked (Option Rule) := do
  let occurrences ← rules.filterMapM fun rule =>
    return (← lastBeforeTime? rule bound).map fun time => (time, rule)
  return (lastGreatest? (fun a b => decide (a.1 < b.1)) occurrences).map Prod.snd

def saveBefore (zone : String) (s : Span) (bound : LocalTime) : Measuring Int :=
  match s.era.saving with
  | .standard => return 0
  | .fixed amount => return amount
  | .policy _ =>
    match s.policy with
    | none => return 0
    | some policy => do
      match ← checked (latestRule? policy.rules bound) with
      | some rule => return rule.save
      | none => throw (.noPriorRule zone policy.name bound.date.year)

def endSave (zone : String) (s : Span) (time : LocalTime) : Measuring Int :=
  match s.era.ends.frame with
  | .wall => saveBefore zone s time
  | _ => return 0

def offset (stdOffset save : Int) : TimeFrame → Checked Int
  | .wall => add stdOffset save
  | .standard => return stdOffset
  | .utc => return 0

def spansFrom (zone : String) (policies : Policies) (start : Option Int)
    (localStart : Option LocalTime) : List Era → Measuring (List Span)
  | [] => return []
  | era :: rest => do
    let policy ← settled (findPolicy zone policies era.saving)
    let span : Span := ⟨era, policy, start, none, localStart⟩
    if era.ends.isEndless then
      let spans ← spansFrom zone policies start localStart rest
      return span :: spans
    else
      match era.ends.localTime? with
      | none => throw (.noActiveEra zone era.ends.year)
      | some time =>
        let save ← endSave zone span time
        let offset ← checked (offset era.stdOffset save era.ends.frame)
        let stop := time.unixSeconds - offset
        let spans ← spansFrom zone policies (some stop) (some time) rest
        return { span with stop := some stop } :: spans

def RulesProper (w : Widths) (policy : Option NamedPolicy) : Prop :=
  ∀ named, policy = some named → ∀ r ∈ named.rules, r.IsProper w

structure IsEnd (time : LocalTime) : Prop where
  least_le : Year.least ≤ time.date.year
  seconds : time.seconds.natAbs ≤ Clock.greatest

structure SpanProper (w : Widths) (s : Span) : Prop where
  era : s.era.IsProper w
  rules : RulesProper w s.policy
  localStart : ∀ time, s.localStart = some time → IsEnd time

section Lookup

variable {w : Widths} {bound : LocalTime} (hleast : Year.least ≤ bound.date.year)
include hleast

theorem lastBeforeTime?_eq {r : Rule} (hr : r.IsProper w) :
    lastBeforeTime? r bound = .ok (r.lastBeforeTime? bound) := by
  have hfrom := hr.least_le
  have hyears := hr.years
  have hto := hr.le_endless
  have hnever : Year.endless < Year.never := by decide
  rw [lastBeforeTime?, sub_one_eq (by omega) (by omega), ok_bind, Rule.lastBeforeTime?]
  refine findSomeM?_eq fun year hyear => ?_
  have hle : year ≤ r.toYear := by
    simp only [List.mem_cons, List.not_mem_nil, or_false] at hyear
    omega
  split
  · rename_i hge
    rw [occurrence?_eq hr hge hle]
    rfl
  · rfl

theorem latestRule?_eq {rules : List Rule} (h : ∀ r ∈ rules, r.IsProper w) :
    latestRule? rules bound = .ok (ZoneTables.latestRule? rules bound) := by
  rw [latestRule?, filterMapM_eq fun r hr => by
    rw [lastBeforeTime?_eq hleast (h r hr), ok_bind, pure_eq], ok_bind]
  rfl

theorem saveBefore_eq {s : Span} (h : RulesProper w s.policy) (zone : String) :
    saveBefore zone s bound = settled (s.saveBefore zone bound) := by
  unfold saveBefore Span.saveBefore
  cases s.era.saving with
  | standard => rfl
  | fixed amount => rfl
  | policy name =>
    cases hpolicy : s.policy with
    | none => rfl
    | some policy =>
      dsimp only
      rw [checked_bind (latestRule?_eq hleast (h policy hpolicy))]
      cases ZoneTables.latestRule? policy.rules bound <;> rfl

end Lookup

theorem natAbs_saveBefore_le {w : Widths} {s : Span} (hera : s.era.IsProper w)
    (hrules : RulesProper w s.policy) {zone : String} {bound : LocalTime} {save : Int}
    (h : s.saveBefore zone bound = .ok save) : save.natAbs ≤ Clock.greatest := by
  have hproper := hera.saving
  unfold Span.saveBefore at h
  split at h
  · cases h
    exact Nat.zero_le _
  · rename_i hsaving
    cases h
    rw [hsaving] at hproper
    exact hproper.2
  · split at h
    · cases h
      exact Nat.zero_le _
    · rename_i policy hpolicy
      split at h
      · rename_i rule hrule
        cases h
        exact (hrules policy hpolicy rule (latestRule?_greatest hrule).1).save.2
      · cases h

theorem offset_eq {stdOffset save : Int} (hoffset : stdOffset.natAbs ≤ Clock.greatest)
    (hsave : save.natAbs ≤ Clock.greatest) (frame : TimeFrame) :
    offset stdOffset save frame = .ok (frame.offset stdOffset save) := by
  cases frame with
  | wall => exact signed_of_natAbs_le (by omega)
  | standard => rfl
  | utc => rfl

theorem endSave_eq {w : Widths} {s : Span} (h : RulesProper w s.policy) {time : LocalTime}
    (htime : IsEnd time) (zone : String) :
    endSave zone s time = settled (s.endSave zone time) := by
  unfold endSave Span.endSave
  cases s.era.ends.frame with
  | wall => exact saveBefore_eq htime.least_le h zone
  | _ => rfl

theorem natAbs_endSave_le {w : Widths} {s : Span} (hera : s.era.IsProper w)
    (hrules : RulesProper w s.policy) {zone : String} {time : LocalTime} {save : Int}
    (h : s.endSave zone time = .ok save) : save.natAbs ≤ Clock.greatest := by
  unfold Span.endSave at h
  split at h
  · exact natAbs_saveBefore_le hera hrules h
  · cases h
    exact Nat.zero_le _

theorem isEnd_of_localTime? {era : Era} (h : era.IsProper w)
    (hends : ¬ era.ends.isEndless) {time : LocalTime}
    (htime : era.ends.localTime? = some time) : IsEnd time := by
  have hleast := (h.ends.date.resolve_left hends).1
  have hyear := Until.year_of_localTime? htime
  obtain ⟨_, _, rfl⟩ := Option.map_eq_some_iff.1 htime
  exact ⟨by omega, h.ends.seconds.2⟩

section Spans

variable {w : Widths} {policies : Policies}
  (hpolicies : ∀ name rules, policies.get? name = some rules →
    ∀ r ∈ rules, r.IsProper w)
include hpolicies

theorem rulesProper_of_findPolicy {zone : String} {saving : Saving}
    {policy : Option NamedPolicy} (h : findPolicy zone policies saving = .ok policy) :
    RulesProper w policy := by
  rintro named rfl
  exact hpolicies _ _ (get?_of_findPolicy h)

theorem spansFrom_eq (zone : String) {eras : List Era} :
    ∀ {start : Option Int} {localStart : Option LocalTime},
      (∀ era ∈ eras, era.IsProper w) →
      spansFrom zone policies start localStart eras =
        settled (ZoneTables.spansFrom zone policies start localStart eras) := by
  induction eras with
  | nil => exact fun _ => rfl
  | cons era rest ih =>
    intro start localStart heras
    rw [List.forall_mem_cons] at heras
    obtain ⟨hera, heras⟩ := heras
    rw [spansFrom, ZoneTables.spansFrom]
    refine settled_bind fun policy hpolicy => ?_
    dsimp only
    split
    · rw [ih heras]
      exact settled_bind fun _ _ => rfl
    · rename_i hends
      cases htime : era.ends.localTime? with
      | none => rfl
      | some time =>
        have hrules := rulesProper_of_findPolicy hpolicies hpolicy
        have hend := isEnd_of_localTime? hera hends htime
        dsimp only
        rw [endSave_eq hrules hend]
        refine settled_bind fun save hsave => ?_
        have hle := natAbs_endSave_le hera hrules hsave
        rw [checked_bind (offset_eq hera.stdOffset.2 hle _), ih heras]
        exact settled_bind fun _ _ => rfl

theorem spanProper_of_spansFrom {zone : String} {eras : List Era} :
    ∀ {start : Option Int} {localStart : Option LocalTime} {l : List Span},
      (∀ era ∈ eras, era.IsProper w) →
      (∀ time, localStart = some time → IsEnd time) →
      ZoneTables.spansFrom zone policies start localStart eras = .ok l →
      ∀ s ∈ l, SpanProper w s := by
  induction eras with
  | nil =>
    intro _ _ l _ _ h
    cases h
    exact List.forall_mem_nil _
  | cons era rest ih =>
    intro start localStart l heras hlocal h
    rw [List.forall_mem_cons] at heras
    obtain ⟨hera, heras⟩ := heras
    rw [ZoneTables.spansFrom] at h
    obtain ⟨policy, hpolicy, h⟩ := except_bind_eq_ok.1 h
    have hrules := rulesProper_of_findPolicy hpolicies hpolicy
    dsimp only at h
    split at h
    · obtain ⟨more, hmore, heq⟩ := except_bind_eq_ok.1 h
      cases heq
      rw [List.forall_mem_cons]
      exact ⟨⟨hera, hrules, hlocal⟩, ih heras hlocal hmore⟩
    · rename_i hends
      split at h
      · cases h
      · rename_i time htime
        obtain ⟨save, _, h⟩ := except_bind_eq_ok.1 h
        obtain ⟨more, hmore, heq⟩ := except_bind_eq_ok.1 h
        cases heq
        rw [List.forall_mem_cons]
        refine ⟨⟨hera, hrules, hlocal⟩, ih heras ?_ hmore⟩
        rintro _ ⟨⟩
        exact isEnd_of_localTime? hera hends htime

end Spans

/-! ## Years -/

def yearBounds? (year : Int) : Checked (Option YearBounds) := do
  let next ← add year 1
  return match Date.ofParts? year 1 1, Date.ofParts? next 1 1 with
  | some first, some next =>
    some ⟨first.unixSeconds 0, next.unixSeconds 0⟩
  | _, _ => none

def activate (z : ZoneReplay) (bounds : YearBounds) (index : Nat) (span : Span) :
    Measuring ActiveSpan :=
  match span.start, span.localStart with
  | some start, some time =>
    if span.startsIn bounds then do
      let seconds ← checked (add time.seconds 1)
      let save ← saveBefore z.zone span ⟨time.date, seconds⟩
      return ⟨index, span,
        some ⟨start, span.policyName, .eraStart index, save⟩⟩
    else return ⟨index, span, none⟩
  | _, _ => return ⟨index, span, none⟩

def pending (year : Int) (a : ActiveSpan) : Measuring (List Pending) :=
  match a.span.policy with
  | none => return []
  | some policy =>
    (policy.rules.zipIdx.filter fun p => p.1.covers year).mapM
      fun (rule, index) => do
        match ← checked (occurrence? rule year) with
        | some time => return ⟨a, index, rule, time.unixSeconds⟩
        | none => throw (.invalidRuleDate policy.name year)

def collect (z : ZoneReplay) (year : Int) (bounds : YearBounds) :
    List (Span × Nat) → Measuring (List Candidate × List Pending)
  | [] => return ([], [])
  | (span, index) :: rest => do
    let active ← activate z bounds index span
    let occurrences ← pending year active
    let (starts, more) ← collect z year bounds rest
    return (active.start.toList ++ starts, occurrences ++ more)

def candidate (p : Pending) (save : Int) : Checked Candidate := do
  let offset ← offset p.active.span.era.stdOffset save p.rule.frame
  return {
    instant := p.seconds - offset
    policy := p.active.span.policyName
    origin := .rule p.index
    save := p.rule.save }

def candidates (save : Int) (previous : Option Nat) :
    List Pending → Checked (List Candidate)
  | [] => return []
  | p :: rest => do
    let before := p.saveBefore save previous
    let c ← candidate p before
    if p.active.span.contains c.instant then
      return c :: (← candidates c.save (some p.active.index) rest)
    else candidates before (some p.active.index) rest

def found (z : ZoneReplay) (year save : Int) : Measuring (List Candidate) := do
  match ← checked (yearBounds? year) with
  | none => throw (z.noActiveEra year)
  | some bounds =>
    let active := z.spans.zipIdx.filter fun p => p.1.isActive bounds
    if active.isEmpty then throw (z.noActiveEra year)
    else
      let (starts, pending) ← collect z year bounds active
      let others ← checked (candidates save none (Pending.inOrder pending))
      return starts ++ others

def initialSave (z : ZoneReplay) (year : Int) : Measuring Int :=
  match Date.ofParts? year 1 1 with
  | none => throw (z.noActiveEra year)
  | some date =>
    match z.spans.find? fun span => span.contains (date.unixSeconds 0) with
    | none => throw (z.noActiveEra year)
    | some span => saveBefore z.zone span ⟨date, 1⟩

def years (z : ZoneReplay) (done : List ReplayedYear) (save year : Int) :
    Nat → Checked ReplayedZone
  | 0 => return ⟨done, none⟩
  | count + 1 => do
    match ← (found z year save).run with
    | .error fault => return ⟨done, some fault⟩
    | .ok cs =>
      let cs := Candidate.inOrder cs
      let next ← add year 1
      years z (⟨year, cs⟩ :: done) (Candidate.saveAfter save cs) next count

def replay (z : ZoneReplay) (w : Window) : Checked ReplayedZone := do
  let first ← sub w.start 1
  let last ← add w.stop 1
  match ← (initialSave z first).run with
  | .error fault => return ⟨[], some fault⟩
  | .ok save => years z [] save first (last - first).toNat

def measureZone (policies : Policies) (window : Window) (zone : String)
    (eras : List Era) : Checked (Measured BufferSize) := do
  match ← (spansFrom zone policies none none eras).run with
  | .error fault => return ⟨[], .error fault⟩
  | .ok spans =>
    let replayed ← replay ⟨zone, spans⟩ window
    let ties := replayed.years.reverse.flatMap (·.ties zone)
    match replayed.fault with
    | some fault => return ⟨ties, .error fault⟩
    | none =>
      let before ← sub window.start 1
      let peak := BufferSize.ofYears before replayed.years
      return ⟨ties ++
        [⟨.trace, s!"zone {zone}: peak {peak.size} in {peak.year}"⟩],
        .ok peak⟩

def bufferSizes (db : Database) (window : Window) : Checked (Measured BufferSizes) := do
  if window.isEmpty || !window.isInRange then
    return ⟨[], .error (.windowOutOfRange window)⟩
  else
    let measured ← db.zones.traverse (measureZone db.policies window)
    let log := Measured.logUntilFault measured.values
    match measured.traverse fun _ m => m.result with
    | .error fault => return ⟨log, .error fault⟩
    | .ok zones =>
      let sizes := BufferSizes.of zones
      return ⟨log ++ sizes.summary window, .ok sizes⟩

structure PendingBounded (p : Pending) : Prop where
  stdOffset : p.active.span.era.stdOffset.natAbs ≤ Clock.greatest
  rule : p.rule.save.natAbs ≤ Clock.greatest
  start : ∀ c, p.active.start = some c → c.save.natAbs ≤ Clock.greatest

theorem candidates_eq {ps : List Pending} :
    ∀ {save : Int} {previous : Option Nat}, (∀ p ∈ ps, PendingBounded p) →
      save.natAbs ≤ Clock.greatest →
      candidates save previous ps = .ok (Pending.candidates save previous ps) := by
  induction ps with
  | nil => exact fun _ _ => rfl
  | cons p ps ih =>
    intro save previous h hsave
    rw [List.forall_mem_cons] at h
    obtain ⟨hp, hps⟩ := h
    have hbefore : (p.saveBefore save previous).natAbs ≤ Clock.greatest := by
      unfold Pending.saveBefore
      split
      · exact hsave
      · cases hstart : p.active.start with
        | none => exact hsave
        | some c => exact hp.start c hstart
    have hcandidate : candidate p (p.saveBefore save previous) =
        .ok (p.candidate (p.saveBefore save previous)) := by
      rw [candidate, offset_eq hp.stdOffset hbefore, ok_bind]
      rfl
    rw [candidates, hcandidate, ok_bind, Pending.candidates]
    split
    · exact bind_eq (ih hps hp.rule) rfl
    · exact ih hps hbefore

theorem fst_mem_of_active (z : ZoneReplay) (bounds : YearBounds) :
    ∀ p ∈ z.spans.zipIdx.filter fun p => p.1.isActive bounds, p.1 ∈ z.spans :=
  fun _ hp => List.fst_mem_of_mem_zipIdx (List.mem_filter.1 hp).1

section Replay

variable {w : Widths} {z : ZoneReplay} (hspans : ∀ s ∈ z.spans, SpanProper w s)
include hspans

theorem activate_eq {bounds : YearBounds} {index : Nat} {s : Span} (hs : s ∈ z.spans) :
    activate z bounds index s = settled (z.activate bounds index s) := by
  unfold activate ZoneReplay.activate
  cases hstart : s.start with
  | none => rfl
  | some start =>
    cases htime : s.localStart with
    | none => rfl
    | some time =>
      have hend := (hspans s hs).localStart time htime
      have hseconds := hend.seconds
      have hgreatest : 1 ≤ Clock.greatest := by decide
      have hnext : add time.seconds 1 = .ok (time.seconds + 1) :=
        signed_of_natAbs_le (by omega)
      dsimp only
      split
      · have hbound : Year.least ≤ time.nextSecond.date.year := hend.least_le
        have hsave := saveBefore_eq hbound (hspans s hs).rules z.zone
        rw [LocalTime.nextSecond] at hsave
        rw [checked_bind hnext, hsave, LocalTime.nextSecond]
        exact settled_bind fun _ _ => rfl
      · rfl

theorem pending_eq {year : Int} {a : ActiveSpan} (ha : a.span ∈ z.spans) :
    pending year a = settled (a.pending year) := by
  unfold pending ActiveSpan.pending
  cases hpolicy : a.span.policy with
  | none => rfl
  | some policy =>
    refine mapM_settled fun ⟨rule, index⟩ hp => ?_
    obtain ⟨hmem, hcovers⟩ := List.mem_filter.1 hp
    obtain ⟨hfrom, hto⟩ := Rule.covers_iff.1 hcovers
    have hproper := (hspans _ ha).rules policy hpolicy rule
      (List.fst_mem_of_mem_zipIdx hmem)
    dsimp only
    rw [checked_bind (occurrence?_eq hproper hfrom hto)]
    cases rule.occurrence? year <;> rfl

theorem collect_eq {year : Int} {bounds : YearBounds} {active : List (Span × Nat)}
    (h : ∀ p ∈ active, p.1 ∈ z.spans) :
    collect z year bounds active = settled (z.collect year bounds active) := by
  induction active with
  | nil => rfl
  | cons p active ih =>
    rw [List.forall_mem_cons] at h
    rw [collect, ZoneReplay.collect, activate_eq hspans h.1]
    refine settled_bind fun a ha => ?_
    have hspan := (ZoneReplay.eq_of_activate ha).2.1
    rw [pending_eq hspans (hspan ▸ h.1)]
    refine settled_bind fun ps _ => ?_
    rw [ih h.2]
    exact settled_bind fun _ _ => rfl

theorem bounded_of_collect {year : Int} {bounds : YearBounds}
    {active : List (Span × Nat)} (h : ∀ p ∈ active, p.1 ∈ z.spans)
    {starts : List Candidate} {pending : List Pending}
    (hcollect : z.collect year bounds active = .ok (starts, pending)) :
    (∀ c ∈ starts, c.save.natAbs ≤ Clock.greatest) ∧
      ∀ p ∈ pending, PendingBounded p := by
  have hstart : ∀ {p : Span × Nat}, p ∈ active → ∀ {a}, z.activate bounds p.2 p.1 = .ok a →
      ∀ c, a.start = some c → c.save.natAbs ≤ Clock.greatest := by
    intro p hp a ha c hc
    have hproper := hspans _ (h p hp)
    obtain ⟨_, _, ⟨_, _, save, _, _, _, hsave, hstart⟩ | ⟨hnone, _⟩⟩ :=
      ZoneReplay.eq_of_activate ha
    · rw [hstart] at hc
      cases hc
      exact natAbs_saveBefore_le hproper.era hproper.rules hsave
    · rw [hnone] at hc
      cases hc
  obtain ⟨hstarts, hpending⟩ := ZoneReplay.exists_of_collect hcollect
  constructor
  · intro c hc
    obtain ⟨p, hp, a, ha, hc⟩ := hstarts c hc
    exact hstart hp ha c hc
  · intro q hq
    obtain ⟨p, hp, a, qs, ha, hqs, hq⟩ := hpending q hq
    have hspan := (ZoneReplay.eq_of_activate ha).2.1
    have hproper := hspans _ (h p hp)
    rcases ActiveSpan.eq_of_pending hqs with ⟨_, rfl⟩ | ⟨policy, hpolicy, hall⟩
    · cases hq
    · obtain ⟨covering, hcovering, time, _, rfl⟩ := forall₂_exists_left hall hq
      have hmem : covering.1 ∈ policy.rules :=
        List.mem_of_getElem? (mem_covering_iff.1 hcovering).1
      rw [hspan] at hpolicy
      refine ⟨?_, (hproper.rules policy hpolicy _ hmem).save.2, hstart hp ha⟩
      show a.span.era.stdOffset.natAbs ≤ _
      rw [hspan]
      exact hproper.era.stdOffset.2

theorem found_eq {year save : Int} (hleast : Year.least - 1 ≤ year)
    (hnever : year ≤ Year.never) (hsave : save.natAbs ≤ Clock.greatest) :
    found z year save = settled (z.found year save) := by
  have hbounds : yearBounds? year = .ok (ZoneTables.yearBounds? year) := by
    rw [yearBounds?, add_one_eq hleast hnever, ok_bind]
    rfl
  rw [found, checked_bind hbounds, ZoneReplay.found]
  cases ZoneTables.yearBounds? year with
  | none => rfl
  | some bounds =>
    have hactive := fst_mem_of_active z bounds
    dsimp only
    split
    · rfl
    · rw [collect_eq hspans hactive]
      refine settled_bind fun ⟨starts, pending⟩ hcollect => ?_
      obtain ⟨_, hpending⟩ := bounded_of_collect hspans hactive hcollect
      exact checked_bind (candidates_eq
        (fun p hp => hpending p (mem_sortByKey.1 hp)) hsave)

theorem natAbs_saveAfter_le {year save : Int} {cs : List Candidate}
    (h : z.candidates year save = .ok cs) (hsave : save.natAbs ≤ Clock.greatest) :
    (Candidate.saveAfter save cs).natAbs ≤ Clock.greatest := by
  obtain ⟨starts, pending, ⟨bounds, _, _, hcollect⟩, rfl⟩ :=
    ZoneReplay.candidates_eq_ok.1 h
  have hactive := fst_mem_of_active z bounds
  obtain ⟨hstarts, hpending⟩ := bounded_of_collect hspans hactive hcollect
  rcases Candidate.saveAfter_mem save (Candidate.inOrder (starts ++
    Pending.candidates save none (Pending.inOrder pending))) with heq | ⟨c, hc, heq⟩
  · rw [heq]
    exact hsave
  · rw [heq]
    rcases List.mem_append.1 (mem_sortByKey.1 hc) with hc | hc
    · exact hstarts c hc
    · obtain ⟨p, hp, hrule⟩ := Pending.save_of_mem_candidates hc
      rw [hrule]
      exact (hpending p (mem_sortByKey.1 hp)).rule

theorem years_eq {done : List ReplayedYear} {count : Nat} :
    ∀ {save year : Int}, Year.least - 1 ≤ year → year + count ≤ Year.never + 1 →
      save.natAbs ≤ Clock.greatest →
      years z done save year count = .ok (z.years done save year count) := by
  induction count generalizing done with
  | zero => exact fun _ _ _ => rfl
  | succ count ih =>
    intro save year hleast hnever hsave
    rw [years, found_eq hspans hleast (by omega) hsave, ZoneReplay.years,
      ZoneReplay.candidates]
    cases hfound : z.found year save with
    | error fault => rfl
    | ok cs =>
      have hcs : z.candidates year save = .ok (Candidate.inOrder cs) := by
        rw [ZoneReplay.candidates, hfound]
        rfl
      have hafter := natAbs_saveAfter_le hspans hcs hsave
      refine bind_eq (a := .ok cs) rfl ?_
      dsimp only
      rw [add_one_eq hleast (by omega), ok_bind]
      exact ih (by omega) (by push_cast at hnever; omega) hafter

theorem initialSave_eq {year : Int} (hleast : Year.least ≤ year) :
    initialSave z year = settled (z.initialSave year) := by
  unfold initialSave ZoneReplay.initialSave
  cases hdate : Date.ofParts? year 1 1 with
  | none => rfl
  | some date =>
    dsimp only
    cases hfind : z.spans.find? fun span => span.contains (date.unixSeconds 0) with
    | none => rfl
    | some span =>
      have hyear := (Date.ofParts?_eq_some_iff.1 hdate).1.1
      have hbound : Year.least ≤ (⟨date, 1⟩ : LocalTime).date.year := by
        dsimp only
        omega
      exact saveBefore_eq hbound
        (hspans span (List.mem_of_find?_eq_some hfind)).rules _

theorem natAbs_initialSave_le {year save : Int} (h : z.initialSave year = .ok save) :
    save.natAbs ≤ Clock.greatest := by
  unfold ZoneReplay.initialSave at h
  split at h
  · cases h
  · split at h
    · cases h
    · rename_i span hfind
      have hproper := hspans span (List.mem_of_find?_eq_some hfind)
      exact natAbs_saveBefore_le hproper.era hproper.rules h

theorem replay_eq {window : Window} (hwindow : window.fault? = none) :
    replay z window = .ok (z.window window) := by
  obtain ⟨hlt, hleast, hstop⟩ := Window.fault?_eq_none.1 hwindow
  have hnever : Year.endless < Year.never := by decide
  rw [replay, year_before_eq hwindow, ok_bind, year_after_eq hwindow, ok_bind,
    initialSave_eq hspans (by omega), ZoneReplay.window]
  cases hsave : z.initialSave (window.start - 1) with
  | error fault => rfl
  | ok save =>
    refine bind_eq (a := .ok save) rfl ?_
    exact years_eq hspans (by omega) (by omega) (natAbs_initialSave_le hspans hsave)

end Replay

/-! ## Databases -/

section Databases

variable {db : Database} {w : Widths}
  (hrules : ∀ name rules, db.policies.get? name = some rules → ∀ r ∈ rules, r.IsProper w)
include hrules

theorem measureZone_eq {window : Window} (hwindow : window.fault? = none) (zone : String)
    {eras : List Era} (heras : ∀ era ∈ eras, era.IsProper w) :
    measureZone db.policies window zone eras =
      .ok (ZoneTables.measureZone db.policies window zone eras) := by
  rw [measureZone, spansFrom_eq hrules zone heras, ZoneTables.measureZone, spans]
  cases hspans : ZoneTables.spansFrom zone db.policies none none eras with
  | error fault => rfl
  | ok l =>
    have hproper := spanProper_of_spansFrom hrules heras (by nofun) hspans
    refine bind_eq (a := .ok l) rfl ?_
    dsimp only
    rw [replay_eq (z := ⟨zone, l⟩) hproper hwindow, ok_bind]
    cases ((⟨zone, l⟩ : ZoneReplay).window window).fault with
    | some fault => rfl
    | none =>
      dsimp only
      rw [year_before_eq hwindow, ok_bind]
      rfl

theorem bufferSizes_eq
    (heras : ∀ name eras, db.zones.get? name = some eras → ∀ era ∈ eras, era.IsProper w)
    (window : Window) : bufferSizes db window = .ok (db.bufferSizes window) := by
  unfold bufferSizes Database.bufferSizes
  split
  · rfl
  · rename_i husable
    have hwindow : window.fault? = none := by
      rw [Bool.or_eq_true, not_or] at husable
      rw [Window.fault?, if_neg husable.1, if_neg husable.2]
    rw [traverse_eq (g := ZoneTables.measureZone db.policies window) fun zone eras hzone =>
      measureZone_eq hrules hwindow zone (heras zone eras hzone), ok_bind]
    dsimp only
    cases (db.zones.map (ZoneTables.measureZone db.policies window)).traverse
      fun _ m => m.result <;> rfl

end Databases

end ZoneTables.Checked
