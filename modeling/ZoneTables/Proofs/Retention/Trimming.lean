import ZoneTables.Proofs.Database.EraOrder

/-!
# Eras under two windows

A window leaves of a zone what a wider one leaves of it, but for eras in front
that end before the window, and for eras at the end that start long after it.
Where the two part at the end, the last common era lasts longer than either of
them can see.
-/

namespace ZoneTables

/-! ## Resolved eras -/

theorem SourceEra.endYear_eq {w : Widths} {source : SourceEra} {era : Era}
    (h : source.ResolvesTo w era) : era.ends.year = source.endYear := by
  have hends := h.ends
  unfold SourceEra.endYear
  cases hsource : source.ends with
  | none =>
    rw [hsource] at hends
    rw [show era.ends = .endless from hends]
    rfl
  | some u =>
    rw [hsource] at hends
    obtain ⟨date, _, _, heq⟩ := hends
    rw [heq]

theorem SourceEra.eq_of_resolve {w : Widths} {strict : Bool}
    {source : SourceEra} {ends ends' : Option SourceUntil} {a a' : Era}
    (h : ({ source with ends }.resolve w strict).result = .ok a)
    (h' : ({ source with ends := ends' }.resolve w strict).result = .ok a') :
    a' = { a with ends := a'.ends } := by
  unfold resolve at h h'
  simp only [Review.result_bind_eq_ok] at h h'
  obtain ⟨offset, hoffset, saving, hsaving, _, _, _, _, h⟩ := h
  obtain ⟨offset', hoffset', saving', hsaving', _, _, _, _, h'⟩ := h'
  obtain rfl : offset = offset' := Except.ok.inj (hoffset.symm.trans hoffset')
  have hsame : (source.resolveSaving w strict).result = .ok saving := hsaving
  obtain rfl : saving = saving' := Except.ok.inj (hsame.symm.trans hsaving')
  cases h
  cases h'
  rfl

/-! ## What is kept of the rest of a zone -/

def keptFrom (w : Window) (startYear : Option Int) (eras : List SourceEra) :
    List SourceEra :=
  ((erasWithPlace w startYear eras).filter fun p => p.2 == .kept).map Prod.fst

section Kept

variable {w : Window} {startYear : Option Int} {era : SourceEra}
  {eras : List SourceEra}

theorem keptFrom_cons_of_lt (h : era.endYear < w.start - 1) :
    keptFrom w startYear (era :: eras) =
      keptFrom w (some era.endYear) eras := by
  unfold keptFrom
  simp [erasWithPlace, SourceEra.place, h]

theorem keptFrom_cons_of_le (hstart : ∀ y, startYear = some y → y ≤ w.stop + 1)
    (h : w.start - 1 ≤ era.endYear) :
    keptFrom w startYear (era :: eras) =
      era :: keptFrom w (some era.endYear) eras := by
  have hnew : (startYear.any fun y => decide (w.stop + 1 < y)) = false := by
    cases startYear with
    | none => rfl
    | some y => simpa using hstart y rfl
  unfold keptFrom
  simp [erasWithPlace, SourceEra.place, hnew, show ¬ era.endYear < w.start - 1 by omega]

theorem endYear_of_ends_eq_none (h : era.ends = none) :
    era.endYear = Year.never := by
  unfold SourceEra.endYear
  rw [h]

theorem le_endYear_of_mem_keptFrom {kept : SourceEra}
    (h : kept ∈ keptFrom w startYear eras) : w.start - 1 ≤ kept.endYear := by
  induction eras generalizing startYear with
  | nil => simp [keptFrom, erasWithPlace] at h
  | cons era eras ih =>
    by_cases hold : era.endYear < w.start - 1
    · rw [keptFrom_cons_of_lt hold] at h
      exact ih h
    · have hmem : kept = era ∨ kept ∈ keptFrom w (some era.endYear) eras := by
        unfold keptFrom at h ⊢
        rw [erasWithPlace, List.filter_cons] at h
        split at h
        · simpa using h
        · exact .inr h
      rcases hmem with rfl | hmem
      · omega
      · exact ih hmem

theorem keptFrom_ne_nil (front : List SourceEra) {last : SourceEra}
    (hlast : last.ends = none) (hw : w.start ≤ w.stop)
    (hstop : w.stop ≤ Year.endless)
    (hstart : ∀ y, startYear = some y → y ≤ w.stop + 1) :
    keptFrom w startYear (front ++ [last]) ≠ [] := by
  induction front generalizing startYear with
  | nil =>
    have hlate : w.start - 1 ≤ last.endYear := by
      rw [endYear_of_ends_eq_none hlast]
      unfold Year.never
      unfold Year.endless at hstop
      omega
    rw [List.nil_append, keptFrom_cons_of_le hstart hlate]
    exact List.cons_ne_nil _ _
  | cons era front ih =>
    rw [List.cons_append]
    by_cases hold : era.endYear < w.start - 1
    · rw [keptFrom_cons_of_lt hold]
      apply ih
      simp
      omega
    · rw [keptFrom_cons_of_le hstart (by omega)]
      exact List.cons_ne_nil _ _

end Kept

/-! ## Without the last end -/

/-- Whether eras are given ones, the last of which may have lost its end. -/
def Opens (eras opened : List SourceEra) : Prop :=
  opened = eras ∨ opened = openLast eras

theorem TrimmedZone.opens_kept (w : Window) (eras : List SourceEra) :
    Opens (keptFrom w none eras) (TrimmedZone.of w eras).kept := by
  unfold TrimmedZone.of Opens keptFrom
  dsimp only
  split
  · exact .inl rfl
  · exact .inr rfl

theorem Opens.exists_mem {eras opened : List SourceEra} {era : SourceEra}
    (h : Opens eras opened) (hmem : era ∈ opened) :
    ∃ kept ∈ eras, era = kept ∨ era = { kept with ends := none } := by
  rcases h with rfl | rfl
  · exact ⟨era, hmem, .inl rfl⟩
  · rcases List.eq_nil_or_concat eras with rfl | ⟨front, last, rfl⟩
    · exact absurd hmem List.not_mem_nil
    · rw [List.concat_eq_append] at hmem ⊢
      rw [openLast_append, List.mem_append, List.mem_singleton] at hmem
      rcases hmem with hmem | rfl
      · exact ⟨era, List.mem_append_left _ hmem, .inl rfl⟩
      · exact ⟨last, by simp, .inr rfl⟩

theorem keptFrom_sublist (w : Window) (startYear : Option Int)
    (eras : List SourceEra) : (keptFrom w startYear eras).Sublist eras := by
  have hsub : (keptFrom w startYear eras).Sublist
      ((erasWithPlace w startYear eras).map Prod.fst) :=
    List.filter_sublist.map Prod.fst
  rwa [map_fst_erasWithPlace] at hsub

theorem TrimmedZone.exists_policy?_eq {w : Window} {eras : List SourceEra}
    {era : SourceEra} (hmem : era ∈ (TrimmedZone.of w eras).kept) :
    ∃ source ∈ eras, source.policy? = era.policy? := by
  obtain ⟨kept, hkept, rfl | rfl⟩ := (opens_kept w eras).exists_mem hmem
  · exact ⟨_, (keptFrom_sublist w none eras).subset hkept, rfl⟩
  · exact ⟨kept, (keptFrom_sublist w none eras).subset hkept, rfl⟩

theorem TrimmedZone.le_endYear_of_mem_kept {w : Window} {eras : List SourceEra}
    {era : SourceEra} (hw : w.start ≤ Year.endless)
    (hmem : era ∈ (TrimmedZone.of w eras).kept) : w.start - 1 ≤ era.endYear := by
  obtain ⟨kept, hkept, rfl | rfl⟩ := (opens_kept w eras).exists_mem hmem
  · exact le_endYear_of_mem_keptFrom hkept
  · rw [endYear_of_ends_eq_none rfl]
    unfold Year.never
    unfold Year.endless at hw
    omega

section Opens

variable {w : Widths} {strict : Bool} {era : SourceEra}
  {eras opened : List SourceEra} {resolved : List Era}

theorem Opens.exists_head (h : Opens (era :: eras) opened)
    (hall : List.Forall₂ (fun s e => (s.resolve w strict).result = .ok e)
      opened resolved) :
    ∃ first rest ends, resolved = first :: rest ∧
      ({ era with ends }.resolve w strict).result = .ok first ∧
      (first.ends.isEndless = true ∨ first.ends.year = era.endYear) := by
  have hhead : ∃ ends tail, opened = { era with ends } :: tail ∧
      (ends = none ∨ ends = era.ends) := by
    rcases h with rfl | rfl
    · exact ⟨era.ends, eras, rfl, .inr rfl⟩
    · cases eras with
      | nil => exact ⟨none, [], rfl, .inl rfl⟩
      | cons next eras => exact ⟨era.ends, _, rfl, .inr rfl⟩
  obtain ⟨ends, tail, rfl, hends⟩ := hhead
  obtain ⟨first, rest, hfirst, _, rfl⟩ := List.forall₂_cons_left_iff.1 hall
  have hyear := SourceEra.endYear_eq (SourceEra.resolvesTo_of_resolve hfirst)
  refine ⟨first, rest, ends, rfl, hfirst, ?_⟩
  rcases hends with rfl | rfl
  · left
    unfold Until.isEndless
    rw [hyear]
    rfl
  · exact .inr hyear

theorem Opens.exists_cons (h : Opens (era :: eras) opened) (hne : eras ≠ [])
    (hall : List.Forall₂ (fun s e => (s.resolve w strict).result = .ok e)
      opened resolved) :
    ∃ first rest tail, resolved = first :: rest ∧
      (era.resolve w strict).result = .ok first ∧ Opens eras tail ∧
      List.Forall₂ (fun s e => (s.resolve w strict).result = .ok e) tail rest := by
  obtain ⟨next, eras, rfl⟩ := List.exists_cons_of_ne_nil hne
  have htail : ∃ tail, opened = era :: tail ∧ Opens (next :: eras) tail := by
    rcases h with rfl | rfl
    · exact ⟨_, rfl, .inl rfl⟩
    · exact ⟨openLast (next :: eras), rfl, .inr rfl⟩
  obtain ⟨tail, rfl, hopens⟩ := htail
  obtain ⟨first, rest, hfirst, hrest, rfl⟩ := List.forall₂_cons_left_iff.1 hall
  exact ⟨first, rest, tail, rfl, hfirst, hopens, hrest⟩

end Opens

def Leaves (w : Window) (widths : Widths) (strict : Bool)
    (startYear : Option Int) (sources : List SourceEra) (eras : List Era) :
    Prop :=
  ∃ l, Opens (keptFrom w startYear sources) l ∧
    List.Forall₂ (fun s e => (s.resolve widths strict).result = .ok e) l eras

section Leaves

variable {w : Window} {widths : Widths} {strict : Bool}
  {startYear : Option Int} {era : SourceEra} {sources : List SourceEra}
  {eras : List Era}

theorem Leaves.of_lt (h : Leaves w widths strict startYear (era :: sources) eras)
    (hlt : era.endYear < w.start - 1) :
    Leaves w widths strict (some era.endYear) sources eras := by
  unfold Leaves at h
  rwa [keptFrom_cons_of_lt hlt] at h

theorem Leaves.exists_head
    (h : Leaves w widths strict startYear (era :: sources) eras)
    (hstart : ∀ y, startYear = some y → y ≤ w.stop + 1)
    (hle : w.start - 1 ≤ era.endYear) :
    ∃ first rest ends, eras = first :: rest ∧
      ({ era with ends }.resolve widths strict).result = .ok first ∧
      (first.ends.isEndless = true ∨ first.ends.year = era.endYear) := by
  obtain ⟨l, hopens, hall⟩ := h
  rw [keptFrom_cons_of_le hstart hle] at hopens
  exact hopens.exists_head hall

theorem Leaves.exists_cons {front : List SourceEra} {last : SourceEra}
    (h : Leaves w widths strict startYear (era :: (front ++ [last])) eras)
    (hproper : era.IsProper) (hends : era.ends.isSome) (hlast : last.ends = none)
    (hw : w.start ≤ w.stop) (hstop : w.stop ≤ Year.endless)
    (hstart : ∀ y, startYear = some y → y ≤ w.stop + 1)
    (hle : w.start - 1 ≤ era.endYear) (hnext : era.endYear ≤ w.stop + 1) :
    ∃ first rest, eras = first :: rest ∧
      (era.resolve widths strict).result = .ok first ∧
      first.ends.isEndless = false ∧ first.ends.year = era.endYear ∧
      Leaves w widths strict (some era.endYear) (front ++ [last]) rest := by
  obtain ⟨l, hopens, hall⟩ := h
  have hne : keptFrom w (some era.endYear) (front ++ [last]) ≠ [] := by
    apply keptFrom_ne_nil front hlast hw hstop
    intro y hy
    cases hy
    exact hnext
  rw [keptFrom_cons_of_le hstart hle] at hopens
  obtain ⟨first, rest, tail, rfl, hfirst, htail, hrest⟩ :=
    hopens.exists_cons hne hall
  have hresolved := SourceEra.resolvesTo_of_resolve hfirst
  refine ⟨first, rest, rfl, hfirst, ?_, SourceEra.endYear_eq hresolved, tail,
    htail, hrest⟩
  rw [SourceUntil.isEndless_of_endsAs hproper.ends hresolved.ends, hends]
  rfl

end Leaves

/-! ## Two windows -/

def Era.Outlasts (w : Window) (era : Era) : Prop :=
  era.ends.isEndless = true ∨ w.stop + 1 < era.ends.year

/-- Whether lists of eras are the same up to one that outlasts a window. -/
inductive AlikeUpTo (w : Window) : List Era → List Era → Prop where
  /-- The eras that outlast the window may differ in their ends, and what is
  behind them does not matter. -/
  | last {a a' : Era} {rest rest' : List Era} :
    a' = { a with ends := a'.ends } → a.Outlasts w → a'.Outlasts w →
    AlikeUpTo w (a :: rest) (a' :: rest')
  /-- The same era stands in front of both. -/
  | cons {a : Era} {rest rest' : List Era} :
    a.ends.isEndless = false → AlikeUpTo w rest rest' →
    AlikeUpTo w (a :: rest) (a :: rest')

section Windows

variable {w w' : Window} {widths : Widths} {strict : Bool}
  (hw : w.start < w.stop) (hfrom : w'.start ≤ w.start) (hto : w.stop ≤ w'.stop)
  (hstop : w'.stop ≤ Year.endless)

include hw hfrom hto hstop

/-- If the wider window keeps nothing that ends before the narrower one, both
keep the same eras up to one that outlasts the narrower one. -/
theorem alikeUpTo_of_leaves {front : List SourceEra} {last : SourceEra}
    (hproper : ∀ era ∈ front, era.IsProper) (hlast : last.ends = none)
    (hfront : ∀ era ∈ front, era.ends.isSome) :
    ∀ {startYear eras eras'},
      (∀ y, startYear = some y → y ≤ w.stop + 1) →
      Leaves w widths strict startYear (front ++ [last]) eras →
      Leaves w' widths strict startYear (front ++ [last]) eras' →
      (∀ era ∈ eras', w.start - 1 ≤ era.ends.year) → AlikeUpTo w eras eras' := by
  induction front with
  | nil =>
    intro startYear eras eras' hstart hl hl' _
    have hnever := endYear_of_ends_eq_none hlast
    unfold Year.never at hnever
    unfold Year.endless at hstop
    obtain ⟨a, rest, ends, rfl, ha, hends⟩ := hl.exists_head hstart (by omega)
    obtain ⟨a', rest', ends', rfl, ha', hends'⟩ :=
      hl'.exists_head (fun y hy => Int.le_trans (hstart y hy) (by omega))
        (by omega)
    have hendless : ∀ {a : Era}, a.ends.year = last.endYear →
        a.ends.isEndless = true := by
      intro a hyear
      unfold Until.isEndless
      rw [hyear, hnever]
      rfl
    refine .last (SourceEra.eq_of_resolve ha ha') ?_ ?_
    · exact .inl (hends.elim id hendless)
    · exact .inl (hends'.elim id hendless)
  | cons era front ih =>
    intro startYear eras eras' hstart hl hl' hyears
    have hstart' : ∀ y, startYear = some y → y ≤ w'.stop + 1 :=
      fun y hy => Int.le_trans (hstart y hy) (by omega)
    rw [List.forall_mem_cons] at hproper hfront
    rw [List.cons_append] at hl hl'
    by_cases hlate : w.stop + 1 < era.endYear
    · -- the era outlasts the window, so nothing behind it matters
      obtain ⟨a, rest, ends, rfl, ha, hends⟩ := hl.exists_head hstart (by omega)
      obtain ⟨a', rest', ends', rfl, ha', hends'⟩ :=
        hl'.exists_head hstart' (by omega)
      refine .last (SourceEra.eq_of_resolve ha ha') ?_ ?_
      · exact hends.imp id fun hyear => by omega
      · exact hends'.imp id fun hyear => by omega
    · have hnext : ∀ y, some era.endYear = some y → y ≤ w.stop + 1 := by
        simp
        omega
      by_cases hold : era.endYear < w'.start - 1
      · exact ih hproper.2 hfront.2 hnext (hl.of_lt (by omega)) (hl'.of_lt hold)
          hyears
      · obtain ⟨a', rest', rfl, ha', hends, hyear, htail'⟩ :=
          hl'.exists_cons hproper.1 hfront.1 hlast (by omega) hstop hstart'
            (by omega) (by omega)
        rw [List.forall_mem_cons] at hyears
        obtain ⟨a, rest, rfl, ha, _, _, htail⟩ :=
          hl.exists_cons hproper.1 hfront.1 hlast (by omega) (by omega) hstart
            (by omega) (by omega)
        obtain rfl : a = a' := Except.ok.inj (ha.symm.trans ha')
        exact .cons hends (ih hproper.2 hfront.2 hnext htail htail' hyears.2)

omit hw hfrom hto in
theorem le_year_of_head {source : SourceEra} {a : Era} {rest : List Era}
    (horder : (a :: rest).Pairwise fun a b => a.ends.year ≤ b.ends.year)
    (hle : w.start - 1 ≤ source.endYear) (hlt : w.start ≤ w'.stop)
    (hends : a.ends.isEndless = true ∨ a.ends.year = source.endYear) :
    ∀ era ∈ a :: rest, w.start - 1 ≤ era.ends.year := by
  have ha : w.start - 1 ≤ a.ends.year := by
    rcases hends with hends | hends
    · unfold Until.isEndless Year.never at hends
      rw [beq_iff_eq] at hends
      unfold Year.endless at hstop
      omega
    · omega
  rw [List.forall_mem_cons]
  refine ⟨ha, fun era hera => ?_⟩
  exact Int.le_trans ha (List.rel_of_pairwise_cons horder hera)

/-- What the narrower window leaves is what the wider one leaves behind eras that
end before the narrower one, up to an era that outlasts it. -/
theorem exists_alikeUpTo_of_leaves {front : List SourceEra} {last : SourceEra}
    (hproper : ∀ era ∈ front, era.IsProper) (hlast : last.ends = none)
    (hfront : ∀ era ∈ front, era.ends.isSome) :
    ∀ {startYear eras eras'},
      (∀ y, startYear = some y → y ≤ w.stop + 1) →
      Leaves w widths strict startYear (front ++ [last]) eras →
      Leaves w' widths strict startYear (front ++ [last]) eras' →
      (eras'.Pairwise fun a b => a.ends.year ≤ b.ends.year) →
      ∃ old rest, eras' = old ++ rest ∧
        (∀ era ∈ old, era.ends.isEndless = false ∧
          era.ends.year < w.start - 1) ∧ AlikeUpTo w eras rest := by
  have hlt : w.start ≤ w'.stop := by omega
  induction front with
  | nil =>
    intro startYear eras eras' hstart hl hl' horder
    have hnever := endYear_of_ends_eq_none hlast
    unfold Year.never at hnever
    have hlate : w.start - 1 ≤ last.endYear := by
      unfold Year.endless at hstop
      omega
    obtain ⟨a', rest', ends', rfl, _, hends'⟩ :=
      hl'.exists_head (fun y hy => Int.le_trans (hstart y hy) (by omega))
        (by omega)
    exact ⟨[], _, rfl, by simp, alikeUpTo_of_leaves hw hfrom hto hstop hproper
      hlast hfront hstart hl hl' (le_year_of_head hstop horder hlate hlt hends')⟩
  | cons era front ih =>
    intro startYear eras eras' hstart hl hl' horder
    have hstart' : ∀ y, startYear = some y → y ≤ w'.stop + 1 :=
      fun y hy => Int.le_trans (hstart y hy) (by omega)
    -- the first era that ends late enough is where the narrower window begins to keep
    by_cases hlate : w.start - 1 ≤ era.endYear
    · obtain ⟨a', rest', ends', rfl, _, hends'⟩ :=
        hl'.exists_head hstart' (by omega)
      exact ⟨[], _, rfl, by simp, alikeUpTo_of_leaves hw hfrom hto hstop hproper
        hlast hfront hstart hl hl' (le_year_of_head hstop horder hlate hlt hends')⟩
    · rw [List.forall_mem_cons] at hproper hfront
      rw [List.cons_append] at hl hl'
      have hnext : ∀ y, some era.endYear = some y → y ≤ w.stop + 1 := by
        simp
        omega
      have htail := hl.of_lt (by omega)
      by_cases hold : era.endYear < w'.start - 1
      · exact ih hproper.2 hfront.2 hnext htail (hl'.of_lt hold) horder
      · -- the era ends between the two windows
        obtain ⟨a', rest', rfl, _, hends, hyear, htail'⟩ :=
          hl'.exists_cons hproper.1 hfront.1 hlast (by omega) hstop hstart'
            (by omega) (by omega)
        obtain ⟨old, rest, rfl, hold, halike⟩ :=
          ih hproper.2 hfront.2 hnext htail htail' horder.of_cons
        refine ⟨a' :: old, rest, rfl, ?_, halike⟩
        rw [List.forall_mem_cons]
        exact ⟨⟨hends, by omega⟩, hold⟩

end Windows

/-! ## Made databases -/

section Made

variable {o : Options} {w' : Window} {s : Source} {db db' : Database}

theorem MadeOf.le_year_of_mem (h : MadeOf o s db) {zone : String}
    {eras : List Era} (hzone : db.zones.get? zone = some eras) :
    ∀ era ∈ eras, o.window.start - 1 ≤ era.ends.year := by
  have hstart : o.window.start ≤ Year.endless :=
    Int.le_trans (Int.le_of_lt h.start_lt) h.stop_le
  obtain ⟨sources, _, _, hresolve⟩ := h.exists_zone hzone
  intro era hera
  obtain ⟨source, hmem, hsource⟩ :=
    forall₂_exists_left (resolveZone_eq_ok.1 hresolve).1 hera
  rw [SourceEra.endYear_eq (SourceEra.resolvesTo_of_resolve hsource)]
  exact TrimmedZone.le_endYear_of_mem_kept hstart hmem

theorem MadeOf.exists_alikeUpTo (h : MadeOf o s db)
    (h' : MadeOf { o with window := w' } s db')
    (hfrom : w'.start ≤ o.window.start) (hto : o.window.stop ≤ w'.stop)
    {zone : String} {eras eras' : List Era}
    (hzone : db.zones.get? zone = some eras)
    (hzone' : db'.zones.get? zone = some eras') :
    ∃ old rest, eras' = old ++ rest ∧
      (∀ era ∈ old, era.ends.isEndless = false ∧
        era.ends.year < o.window.start - 1) ∧ AlikeUpTo o.window eras rest := by
  have horder := (h'.pairwise_key hzone').imp fun hkey =>
    Until.year_le_of_key_lt hkey
  obtain ⟨sources, hsource, _, hresolve⟩ := h.exists_zone hzone
  obtain ⟨sources', hsource', _, hresolve'⟩ := h'.exists_zone hzone'
  obtain rfl : sources = sources' :=
    Option.some.inj (hsource.symm.trans hsource')
  obtain ⟨front, last, rfl, hfront, hlast⟩ := h.proper.joined hsource
  have hlast' : last.ends = none := by simpa using hlast
  have hproper := h.proper.fields hsource
  exact exists_alikeUpTo_of_leaves h.start_lt hfrom hto h'.stop_le
    (fun era hera => hproper era (List.mem_append_left _ hera)) hlast' hfront
    (fun _ hnone => absurd hnone (Option.some_ne_none _).symm)
    ⟨_, TrimmedZone.opens_kept _ _, (resolveZone_eq_ok.1 hresolve).1⟩
    ⟨_, TrimmedZone.opens_kept _ _, (resolveZone_eq_ok.1 hresolve').1⟩ horder

end Made

end ZoneTables
