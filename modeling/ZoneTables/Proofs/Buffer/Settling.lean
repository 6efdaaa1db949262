import ZoneTables.Proofs.Buffer.Chaining
import ZoneTables.Proofs.Buffer.Ties

/-!
# The saving that a year settles on

Of the candidates at the last instant of a year one carries on its saving.  Which
one that is hangs on policies and origins only, and candidates of one policy and
one origin have one saving.  In which order candidates are found thus does not
matter.
-/

namespace ZoneTables

namespace Candidate

/-- Whether a candidate comes first, by policy and origin, of those at the last
instant. -/
structure Prevails (cs : List Candidate) (c : Candidate) : Prop where
  mem : c ∈ cs
  last : ∀ c' ∈ cs, c'.instant ≤ c.instant
  first : ∀ c' ∈ cs, c'.instant = c.instant →
    c.policy < c'.policy ∨
      (c.policy = c'.policy ∧ ¬ c'.origin.isBefore c.origin)

variable {cs cs' : List Candidate} {c c' : Candidate} {save : Int}

/-! ## Who wins -/

theorem winsOver_iff : c.winsOver c' ↔ c.policy < c'.policy ∨
    (c.policy = c'.policy ∧ c.origin.isBefore c'.origin) := by
  unfold winsOver
  by_cases hpolicy : c.policy = c'.policy
  · rw [if_pos hpolicy, hpolicy]
    exact ⟨fun h => .inr ⟨rfl, h⟩, fun h =>
      (h.resolve_left (String.lt_irrefl _)).2⟩
  · rw [if_neg hpolicy, decide_eq_true_eq]
    exact ⟨.inl, fun h => h.resolve_right fun heq => hpolicy heq.1⟩

theorem not_winsOver_iff : ¬ c'.winsOver c ↔ c.policy < c'.policy ∨
    (c.policy = c'.policy ∧ ¬ c'.origin.isBefore c.origin) := by
  unfold winsOver
  by_cases hpolicy : c'.policy = c.policy
  · rw [if_pos hpolicy, hpolicy]
    exact ⟨fun h => .inr ⟨rfl, h⟩, fun h =>
      (h.resolve_left (String.lt_irrefl _)).2⟩
  · rw [if_neg hpolicy, decide_eq_true_eq]
    constructor
    · exact fun h => .inl
        (Std.lt_of_le_of_ne (String.not_lt.1 h) (Ne.symm hpolicy))
    · exact fun h => String.lt_asymm
        (h.resolve_right fun heq => hpolicy heq.1.symm)

theorem isRanking_winsOver : IsRanking winsOver where
  asymm {a b} hab := by
    rw [winsOver_iff] at hab
    rw [not_winsOver_iff]
    exact hab.imp_right fun h => ⟨h.1, Origin.isRanking_isBefore.asymm h.2⟩
  split {a b c} hac := by
    rw [winsOver_iff] at hac
    rw [winsOver_iff, winsOver_iff]
    rcases Std.lt_trichotomy a.policy b.policy with hab | hab | hab
    · exact .inl (.inl hab)
    · rcases hac with hlt | ⟨heq, hbefore⟩
      · exact .inr (.inl (hab ▸ hlt))
      · exact (Origin.isRanking_isBefore.split hbefore).imp
          (fun h => .inr ⟨hab, h⟩) fun h => .inr ⟨hab.symm.trans heq, h⟩
    · rcases hac with hlt | ⟨heq, _⟩
      · exact .inr (.inl (String.lt_trans hab hlt))
      · exact .inr (.inl (heq ▸ hab))

theorem eq_of_not_winsOver (h : ¬ c.winsOver c') (h' : ¬ c'.winsOver c) :
    c.policy = c'.policy ∧ c.origin = c'.origin := by
  rw [not_winsOver_iff] at h h'
  rcases h with hlt | ⟨hpolicy, hnot⟩
  · rcases h' with hlt' | ⟨hpolicy, _⟩
    · exact absurd hlt' (String.lt_asymm hlt)
    · exact absurd (hpolicy ▸ hlt) (String.lt_irrefl _)
  · rcases h' with hlt' | ⟨_, hnot'⟩
    · exact absurd (hpolicy ▸ hlt') (String.lt_irrefl _)
    · exact ⟨hpolicy.symm, Origin.eq_of_not_isBefore hnot hnot'⟩

/-! ## The last instant -/

theorem getLast?_groups_append {front back : List Candidate} (hback : back ≠ [])
    (hlt : ∀ c ∈ front, ∀ c' ∈ back, c.instant < c'.instant)
    (hsame : ∀ c ∈ back, ∀ c' ∈ back, c.instant = c'.instant) :
    (groups (front ++ back)).getLast? = some back := by
  have hbetween : ∀ c ∈ front.getLast?, ∀ c' ∈ back.head?,
      (c.instant == c'.instant) = false := by
    intro c hc c' hc'
    have := hlt c (List.mem_of_getLast? hc) c' (List.mem_of_mem_head? hc')
    rw [beq_eq_false_iff_ne]
    omega
  have hchain : back.IsChain fun c c' => c.instant == c'.instant :=
    (List.pairwise_of_forall_mem_list fun c hc c' hc' =>
      beq_iff_eq.2 (hsame c hc c' hc')).isChain
  unfold groups
  rw [List.splitBy_append hbetween, List.splitBy_of_isChain hback hchain,
    List.getLast?_concat]

theorem getLast?_groups_inOrder (hc : c ∈ cs)
    (hlast : ∀ c' ∈ cs, c'.instant ≤ c.instant) :
    (groups (inOrder cs)).getLast? =
      some (cs.filter fun c' => decide (c'.instant = c.instant)) := by
  have hsplit := filter_lt_append_filter_eq (pairwise_sortByKey cs)
    fun c' hc' => hlast c' (mem_sortByKey.1 hc')
  rw [(stablySorted_sortByKey cs).stable c.instant] at hsplit
  unfold inOrder
  rw [← hsplit]
  apply getLast?_groups_append
  · exact List.ne_nil_of_mem (List.mem_filter.2 ⟨hc, decide_eq_true rfl⟩)
  · intro d hd d' hd'
    rw [of_decide_eq_true (List.mem_filter.1 hd').2]
    exact of_decide_eq_true (List.mem_filter.1 hd).2
  · intro d hd d' hd'
    rw [of_decide_eq_true (List.mem_filter.1 hd).2,
      of_decide_eq_true (List.mem_filter.1 hd').2]

theorem exists_last (h : cs ≠ []) :
    ∃ c ∈ cs, ∀ c' ∈ cs, c'.instant ≤ c.instant := by
  induction cs with
  | nil => exact absurd rfl h
  | cons a cs ih =>
    by_cases hcs : cs = []
    · subst hcs
      exact ⟨a, List.mem_cons_self, by simp⟩
    · obtain ⟨c, hc, hlast⟩ := ih hcs
      rcases Int.le_total c.instant a.instant with hle | hle
      · exact ⟨a, List.mem_cons_self, List.forall_mem_cons.2
          ⟨Int.le_refl _, fun c' hc' => Int.le_trans (hlast c' hc') hle⟩⟩
      · exact ⟨c, List.mem_cons_of_mem _ hc, List.forall_mem_cons.2 ⟨hle, hlast⟩⟩

theorem saveAfter_inOrder (h : cs ≠ []) (save : Int) :
    ∃ c : Candidate, c.Prevails cs ∧ saveAfter save (inOrder cs) = c.save := by
  obtain ⟨c, hc, hlast⟩ := exists_last h
  have hgroup := getLast?_groups_inOrder hc hlast
  cases hwinner : winner?
      (cs.filter fun c' => decide (c'.instant = c.instant)) with
  | none =>
    have hmem : c ∈ cs.filter fun c' => decide (c'.instant = c.instant) :=
      List.mem_filter.2 ⟨hc, decide_eq_true rfl⟩
    rw [choose?_eq_none.1 hwinner] at hmem
    cases hmem
  | some w =>
    obtain ⟨hmem, hleast⟩ := firstLeast?_least isRanking_winsOver hwinner
    obtain ⟨hw, hinstant⟩ := List.mem_filter.1 hmem
    rw [decide_eq_true_eq] at hinstant
    refine ⟨w, ⟨hw, hinstant ▸ hlast, fun c' hc' heq => ?_⟩, ?_⟩
    · refine not_winsOver_iff.1 (hleast c' (List.mem_filter.2 ⟨hc', ?_⟩))
      exact decide_eq_true (heq.trans hinstant)
    · unfold saveAfter
      rw [hgroup, Option.bind_some, hwinner]

theorem Prevails.eq_of_prevails (h : c.Prevails cs) (h' : c'.Prevails cs) :
    c.policy = c'.policy ∧ c.origin = c'.origin := by
  have hinstant : c.instant = c'.instant :=
    Int.le_antisymm (h'.last c h.mem) (h.last c' h'.mem)
  exact eq_of_not_winsOver (not_winsOver_iff.2 (h'.first c h.mem hinstant))
    (not_winsOver_iff.2 (h.first c' h'.mem hinstant.symm))

theorem Prevails.of_perm (h : c.Prevails cs') (hperm : cs'.Perm cs) :
    c.Prevails cs where
  mem := hperm.mem_iff.1 h.mem
  last c' hc' := h.last c' (hperm.mem_iff.2 hc')
  first c' hc' := h.first c' (hperm.mem_iff.2 hc')

end Candidate

/-! ## Candidates of one policy and one origin -/

namespace Pending

theorem exists_rule_of_candidates {ps : List Pending} {save : Int}
    {previous : Option Nat} {c : Candidate}
    (hc : c ∈ candidates save previous ps) : ∃ k, c.origin = .rule k := by
  change c ∈ candidates (savingAfter save none) previous ps at hc
  rw [candidates_eq] at hc
  obtain ⟨x, _, rfl⟩ := List.mem_map.1 hc
  exact ⟨_, rfl⟩

end Pending

namespace ZoneReplay

variable {z : ZoneReplay} {policies : Policies} {year save : Int}
  {cs : List Candidate} {c c' : Candidate}

theorem exists_saveBefore_of_eraStart (hcs : z.candidates year save = .ok cs)
    (hc : c ∈ cs) {index : Nat} (horigin : c.origin = .eraStart index) :
    ∃ s time, z.spans[index]? = some s ∧ s.localStart = some time ∧
      s.saveBefore z.zone time.nextSecond = .ok c.save := by
  obtain ⟨starts, pending, ⟨bounds, _, _, hcollect⟩, rfl⟩ :=
    candidates_eq_ok.1 hcs
  rcases List.mem_append.1 (mem_sortByKey.1 hc) with hc | hc
  · obtain ⟨p, hp, a, ha, hstart⟩ := (exists_of_collect hcollect).1 c hc
    obtain ⟨_, _, ⟨_, time, _, _, _, htime, hsave, hcandidate⟩ | ⟨hnone, _⟩⟩ :=
      eq_of_activate ha
    · cases hstart.symm.trans hcandidate
      cases horigin
      exact ⟨p.1, time, List.mem_zipIdx_iff_getElem?.1 (List.mem_filter.1 hp).1,
        htime, hsave⟩
    · rw [hnone] at hstart
      cases hstart
  · obtain ⟨k, hk⟩ := Pending.exists_rule_of_candidates hc
    rw [hk] at horigin
    cases horigin

theorem exists_rule_of_rule
    (hpolicies : ∀ s ∈ z.spans, ∀ named, s.policy = some named →
      policies.get? named.name = some named.rules)
    (hcs : z.candidates year save = .ok cs) (hc : c ∈ cs) {k : Nat}
    (horigin : c.origin = .rule k) :
    ∃ rules rule, policies.get? c.policy = some rules ∧
      rules[k]? = some rule ∧ c.save = rule.save := by
  obtain ⟨_, s, hs, hpolicy, hrule⟩ := exists_comesFrom hcs hc
  rw [horigin] at hrule
  obtain ⟨_, named, rule, hnamed, hk, hsave⟩ := hrule
  refine ⟨named.rules, rule, ?_, hk, hsave⟩
  unfold Span.policyName at hpolicy
  rw [hnamed] at hpolicy
  rw [hpolicy]
  exact hpolicies s (List.mem_of_getElem? hs) named hnamed

theorem save_eq_of_origin_eq
    (hpolicies : ∀ s ∈ z.spans, ∀ named, s.policy = some named →
      policies.get? named.name = some named.rules)
    (hcs : z.candidates year save = .ok cs) (hc : c ∈ cs) (hc' : c' ∈ cs)
    (hpolicy : c.policy = c'.policy) (horigin : c.origin = c'.origin) :
    c.save = c'.save := by
  cases hcases : c.origin with
  | eraStart index =>
    obtain ⟨s, time, hs, htime, hsave⟩ :=
      exists_saveBefore_of_eraStart hcs hc hcases
    obtain ⟨s', time', hs', htime', hsave'⟩ :=
      exists_saveBefore_of_eraStart hcs hc' (horigin ▸ hcases)
    cases hs.symm.trans hs'
    cases htime.symm.trans htime'
    exact Except.ok.inj (hsave.symm.trans hsave')
  | rule k =>
    obtain ⟨rules, rule, hrules, hrule, hsave⟩ :=
      exists_rule_of_rule hpolicies hcs hc hcases
    obtain ⟨rules', rule', hrules', hrule', hsave'⟩ :=
      exists_rule_of_rule hpolicies hcs hc' (horigin ▸ hcases)
    rw [← hpolicy] at hrules'
    cases hrules.symm.trans hrules'
    cases hrule.symm.trans hrule'
    rw [hsave, hsave']

end ZoneReplay

/-! ## What a year settles on -/

namespace Candidate

variable {cs order : List Candidate} {c : Candidate}

/-- In whatever order candidates are found, the saving after them is that of any
one that prevails, if candidates of one policy and one origin have one saving. -/
theorem Prevails.saveAfter_eq (hc : c.Prevails cs)
    (hsame : ∀ c ∈ cs, ∀ c' ∈ cs, c.policy = c'.policy → c.origin = c'.origin →
      c.save = c'.save) (horder : order.Perm cs) (save : Int) :
    saveAfter save (inOrder order) = c.save := by
  have hne : order ≠ [] := by
    rintro rfl
    exact List.not_mem_nil (horder.mem_iff.2 hc.mem)
  obtain ⟨c', hc', hsave⟩ := saveAfter_inOrder hne save
  have hprevails : c'.Prevails cs := hc'.of_perm horder
  obtain ⟨hpolicy, horigin⟩ := hprevails.eq_of_prevails hc
  rw [hsave]
  exact hsame c' hprevails.mem c hc.mem hpolicy horigin

/-- In whatever order the candidates of a year are found, the year needs the same
room and carries on the same saving: that of the first policy and origin at the
last instant, or the one carried into it if there are no candidates. -/
theorem settles_in_any_order {zone : String} {policies : Policies}
    {eras : List Era} {l : List Span} {year save : Int}
    (hspans : spans zone policies eras = .ok l)
    (hfound : (⟨zone, l⟩ : ZoneReplay).found year save = .ok cs) :
    (∀ c ∈ cs, ∀ c' ∈ cs, c.policy = c'.policy → c.origin = c'.origin →
      c.save = c'.save) ∧
    (∀ order : List Candidate, order.Perm cs →
      (ReplayedYear.mk year (inOrder order)).need =
          (ReplayedYear.mk year (inOrder cs)).need ∧
        saveAfter save (inOrder order) = saveAfter save (inOrder cs)) ∧
    (cs = [] → saveAfter save (inOrder cs) = save) ∧
    (cs ≠ [] → ∃ c : Candidate, c.Prevails cs) ∧
    ∀ c : Candidate, c.Prevails cs → saveAfter save (inOrder cs) = c.save := by
  have hcandidates : (⟨zone, l⟩ : ZoneReplay).candidates year save =
      .ok (inOrder cs) := by
    unfold ZoneReplay.candidates
    rw [hfound]
    rfl
  have hpolicies : ∀ s ∈ l, ∀ named, s.policy = some named →
      policies.get? named.name = some named.rules := by
    unfold spans at hspans
    exact get?_of_mem_spansFrom hspans
  have hsame : ∀ c ∈ cs, ∀ c' ∈ cs, c.policy = c'.policy →
      c.origin = c'.origin → c.save = c'.save := fun c hc c' hc' =>
    ZoneReplay.save_eq_of_origin_eq hpolicies hcandidates
      (mem_sortByKey.2 hc) (mem_sortByKey.2 hc')
  have hprevails : cs ≠ [] → ∃ c : Candidate, c.Prevails cs := fun hne =>
    (saveAfter_inOrder hne save).imp fun _ h => h.1
  refine ⟨hsame, fun order horder => ⟨?_, ?_⟩, ?_, hprevails,
    fun c hc => hc.saveAfter_eq hsame (.refl cs) save⟩
  · unfold ReplayedYear.need inOrder
    dsimp only
    rw [(sortByKey_perm order).length_eq, (sortByKey_perm cs).length_eq,
      horder.length_eq]
  · by_cases hne : cs = []
    · subst hne
      rw [List.perm_nil.1 horder]
    · obtain ⟨c, hc⟩ := hprevails hne
      rw [hc.saveAfter_eq hsame horder, hc.saveAfter_eq hsame (.refl cs)]
  · rintro rfl
    rfl

/-- A zone whose first and last era follow one policy and overlap, because the era
between them is so far from universal time that it ends before it starts. -/
def overlappingText : SourceText where
  name := "t"
  text := "R P 2000 o - Mar 1 6u 1 D\n" ++
    "R P 2000 o - Mar 1 12u 2 M\n" ++
    "Z Z 0 P E%s 2000 Mar 1 12u\n" ++
    " 12 - G 2000 Mar 1 13\n" ++
    " 0 P F%s\n"

/-- One rule takes effect in both of the eras.  The other one meets the start of the
era between them, which has no policy and prevails in every order. -/
theorem settles_in_any_order_overlappingText :
    ∃ db eras l cs, MadeFrom twoYears [overlappingText] db ∧
      db.zones.get? "Z" = some eras ∧ spans "Z" db.policies eras = .ok l ∧
      (⟨"Z", l⟩ : ZoneReplay).found 2000 3600 = .ok cs ∧
      (cs.map fun c => (c.policy, c.origin, c.save)) =
        [("", .eraStart 1, 0), ("P", .eraStart 2, 7200), ("P", .rule 1, 3600),
          ("P", .rule 1, 3600), ("P", .rule 2, 7200)] ∧
      ∀ order : List Candidate, order.Perm cs →
        (ReplayedYear.mk 2000 (inOrder order)).need = 5 ∧
          saveAfter 3600 (inOrder order) = 0 := by
  have hread : (Source.empty.readTexts [] [overlappingText]).fault = none := by
    decide +kernel
  have hrun : ∃ db ∈ (Database.ofSource twoYears
        (Source.empty.readTexts [] [overlappingText]).source).result.toOption,
      ∃ z ∈ db.replay? "Z", ∃ cs ∈ (z.found 2000 3600).toOption,
        (cs.map fun c => (c.policy, c.origin, c.save)) =
          [("", .eraStart 1, 0), ("P", .eraStart 2, 7200), ("P", .rule 1, 3600),
            ("P", .rule 1, 3600), ("P", .rule 2, 7200)] ∧
        (ReplayedYear.mk 2000 (inOrder cs)).need = 5 ∧
          saveAfter 3600 (inOrder cs) = 0 := by
    decide +kernel
  obtain ⟨db, hdb, ⟨zone, l⟩, hz, cs, hcs, hcandidates, hneed, hsave⟩ := hrun
  rw [Option.mem_def, except_toOption_eq_some] at hdb hcs
  obtain ⟨eras, heras, hl, hzone⟩ := Database.exists_spans_of_replay? hz
  dsimp only at hl hzone
  subst hzone
  refine ⟨db, eras, l, cs, ⟨hread, hdb⟩, heras, hl, hcs, hcandidates,
    fun order horder => ?_⟩
  obtain ⟨hneed', hsave'⟩ := (settles_in_any_order hl hcs).2.1 order horder
  exact ⟨hneed'.trans hneed, hsave'.trans hsave⟩

end Candidate

end ZoneTables
