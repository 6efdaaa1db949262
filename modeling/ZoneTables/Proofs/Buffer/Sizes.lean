import ZoneTables.Buffer.Size
import ZoneTables.Proofs.Buffer.Years

/-!
# Sizes of buffers

The size of a zone is the greatest of the needs of its years, and the greatest
size is that of a zone.  Sizes are found if every zone can be replayed.
-/

namespace ZoneTables

theorem BufferSize.size_ofYears_le {first : Int} {years : List ReplayedYear}
    {room : Nat} :
    (ofYears first years).size ≤ room ↔ ∀ y ∈ years, y.need ≤ room := by
  have hfold : ∀ (l : List ReplayedYear) (peak : BufferSize),
      (l.foldl (fun peak y => if peak.size < y.need then ⟨y.need, y.year⟩
        else peak) peak).size ≤ room ↔
        peak.size ≤ room ∧ ∀ y ∈ l, y.need ≤ room := by
    intro l
    induction l with
    | nil => simp
    | cons y l ih =>
      intro peak
      rw [List.foldl_cons, ih, List.forall_mem_cons]
      split
      · dsimp only
        constructor
        · rintro ⟨hneed, hrest⟩
          exact ⟨by omega, hneed, hrest⟩
        · rintro ⟨_, hneed, hrest⟩
          exact ⟨hneed, hrest⟩
      · constructor
        · rintro ⟨hpeak, hrest⟩
          exact ⟨hpeak, by omega, hrest⟩
        · rintro ⟨hpeak, _, hrest⟩
          exact ⟨hpeak, hrest⟩
  unfold ofYears
  rw [hfold]
  simp

theorem BufferSizes.greatest_of_le {zones : NameMap BufferSize} {room : Nat} :
    (BufferSizes.of zones).greatest ≤ room ↔
      ∀ zone size, zones.get? zone = some size → size.size ≤ room := by
  have hfold : ∀ (l : List BufferSize) (n : Nat),
      l.foldl (fun n size => max n size.size) n ≤ room ↔
        n ≤ room ∧ ∀ size ∈ l, size.size ≤ room := by
    intro l
    induction l with
    | nil => simp
    | cons size l ih =>
      intro n
      rw [List.foldl_cons, ih, List.forall_mem_cons, Nat.max_le, and_assoc]
  unfold BufferSizes.of
  rw [hfold]
  constructor
  · rintro ⟨_, hall⟩ zone size hget
    exact hall size (List.mem_map.2
      ⟨(zone, size), NameMap.get?_eq_some_iff.1 hget, rfl⟩)
  · intro hall
    refine ⟨Nat.zero_le _, fun size hmem => ?_⟩
    obtain ⟨⟨zone, size'⟩, hentry, rfl⟩ := List.mem_map.1 hmem
    exact hall zone size' (NameMap.get?_eq_some_iff.2 hentry)

theorem measureZone_eq_ok {policies : Policies} {w : Window} {zone : String}
    {eras : List Era} {size : BufferSize} :
    (measureZone policies w zone eras).result = .ok size ↔
      ∃ spans, ZoneTables.spans zone policies eras = .ok spans ∧
        ((⟨zone, spans⟩ : ZoneReplay).window w).fault = none ∧
        size = BufferSize.ofYears (w.start - 1)
          ((⟨zone, spans⟩ : ZoneReplay).window w).years := by
  unfold measureZone
  cases hspans : ZoneTables.spans zone policies eras with
  | error e => exact ⟨nofun, fun ⟨_, h, _⟩ => nomatch h⟩
  | ok spans =>
    dsimp only
    cases hfault : ((⟨zone, spans⟩ : ZoneReplay).window w).fault with
    | some e =>
      constructor
      · exact nofun
      · rintro ⟨_, heq, hnone, _⟩
        cases heq
        rw [hfault] at hnone
        cases hnone
    | none =>
      constructor
      · intro h
        cases h
        exact ⟨spans, rfl, hfault, rfl⟩
      · rintro ⟨_, heq, _, rfl⟩
        cases heq
        rfl

theorem measureZone_eq_error {policies : Policies} {w : Window}
    {zone : String} {eras : List Era} {e : BufferError}
    (h : (measureZone policies w zone eras).result = .error e) :
    ZoneTables.spans zone policies eras = .error e ∨
      ∃ spans, ZoneTables.spans zone policies eras = .ok spans ∧
        ((⟨zone, spans⟩ : ZoneReplay).window w).fault = some e := by
  unfold measureZone at h
  cases hspans : ZoneTables.spans zone policies eras with
  | error e' =>
    rw [hspans] at h
    cases h
    exact .inl rfl
  | ok spans =>
    rw [hspans] at h
    dsimp only at h
    cases hfault : ((⟨zone, spans⟩ : ZoneReplay).window w).fault with
    | none =>
      rw [hfault] at h
      cases h
    | some e' =>
      rw [hfault] at h
      cases h
      exact .inr ⟨spans, rfl, hfault⟩

theorem Window.usable_iff {w : Window} :
    (w.isEmpty || !w.isInRange) = false ↔
      w.start < w.stop ∧ Year.least < w.start ∧ w.stop ≤ Year.endless := by
  unfold isEmpty isInRange
  rw [Bool.or_eq_false_iff, Bool.not_eq_false', Bool.and_eq_true,
    decide_eq_false_iff_not, decide_eq_true_eq, decide_eq_true_eq]
  constructor
  · rintro ⟨hempty, hrange⟩
    exact ⟨by omega, hrange⟩
  · rintro ⟨hlt, hrange⟩
    exact ⟨by omega, hrange⟩

namespace Database

variable {db : Database} {w : Window} {sizes : BufferSizes}

theorem bufferSizes_eq_ok :
    (db.bufferSizes w).result = .ok sizes ↔
      (w.start < w.stop ∧ Year.least < w.start ∧ w.stop ≤ Year.endless) ∧
        ∃ zones, (db.zones.map (measureZone db.policies w)).traverse
          (fun _ m => m.result) = .ok zones ∧ sizes = .of zones := by
  rw [← Window.usable_iff]
  unfold bufferSizes
  cases (w.isEmpty || !w.isInRange) with
  | true => exact ⟨nofun, fun h => nomatch h.1⟩
  | false =>
    dsimp only
    rw [if_neg Bool.false_ne_true]
    split
    · rename_i e he
      rw [he]
      exact ⟨nofun, fun ⟨_, _, h, _⟩ => nomatch h⟩
    · rename_i zones hzones
      rw [hzones]
      constructor
      · intro h
        cases h
        exact ⟨rfl, zones, rfl, rfl⟩
      · rintro ⟨_, zones', heq, rfl⟩
        cases heq
        rfl

theorem get?_measured {zone : String} {m : Measured BufferSize} :
    (db.zones.map (measureZone db.policies w)).get? zone = some m ↔
      ∃ eras, db.zones.get? zone = some eras ∧
        measureZone db.policies w zone eras = m := by
  rw [NameMap.get?_map, Option.map_eq_some_iff]

theorem exists_zone_of_bufferSizes_eq_error {e : BufferError}
    (hlt : w.start < w.stop) (hleast : Year.least < w.start)
    (hstop : w.stop ≤ Year.endless)
    (h : (db.bufferSizes w).result = .error e) :
    ∃ zone eras, db.zones.get? zone = some eras ∧
      (measureZone db.policies w zone eras).result = .error e := by
  unfold bufferSizes at h
  rw [Window.usable_iff.2 ⟨hlt, hleast, hstop⟩, if_neg Bool.false_ne_true] at h
  dsimp only at h
  split at h
  · rename_i e' he
    cases h
    obtain ⟨zone, m, hm, he⟩ := NameMap.exists_of_traverse_eq_error he
    obtain ⟨eras, hzone, rfl⟩ := get?_measured.1 hm
    exact ⟨zone, eras, hzone, he⟩
  · cases h

theorem exists_bufferSizes (hlt : w.start < w.stop)
    (hleast : Year.least < w.start) (hstop : w.stop ≤ Year.endless) :
    (∃ sizes, (db.bufferSizes w).result = .ok sizes) ↔
      ∀ zone eras, db.zones.get? zone = some eras →
        ∃ size, (measureZone db.policies w zone eras).result = .ok size := by
  constructor
  · rintro ⟨sizes, hsizes⟩ zone eras hzone
    obtain ⟨_, zones, hzones, _⟩ := bufferSizes_eq_ok.1 hsizes
    exact NameMap.exists_traverse_eq_ok.1 ⟨zones, hzones⟩ zone _
      (get?_measured.2 ⟨eras, hzone, rfl⟩)
  · intro hall
    obtain ⟨zones, hzones⟩ := NameMap.exists_traverse_eq_ok.2
      fun zone m (hm : (db.zones.map (measureZone db.policies w)).get? zone =
          some m) => by
        obtain ⟨eras, hzone, rfl⟩ := get?_measured.1 hm
        exact hall zone eras hzone
    exact ⟨_, bufferSizes_eq_ok.2 ⟨⟨hlt, hleast, hstop⟩, zones, hzones, rfl⟩⟩

theorem get?_of_bufferSizes (h : (db.bufferSizes w).result = .ok sizes)
    {zone : String} {size : BufferSize} :
    sizes.zones.get? zone = some size ↔
      ∃ eras, db.zones.get? zone = some eras ∧
        (measureZone db.policies w zone eras).result = .ok size := by
  obtain ⟨_, zones, hzones, rfl⟩ := bufferSizes_eq_ok.1 h
  have hget : (BufferSizes.of zones).zones.get? zone = some size ↔
      ∃ m, (db.zones.map (measureZone db.policies w)).get? zone = some m ∧
        m.result = .ok size :=
    NameMap.get?_of_traverse hzones
  rw [hget]
  constructor
  · rintro ⟨m, hm, hsize⟩
    obtain ⟨eras, hzone, rfl⟩ := get?_measured.1 hm
    exact ⟨eras, hzone, hsize⟩
  · rintro ⟨eras, hzone, hsize⟩
    exact ⟨_, get?_measured.2 ⟨eras, hzone, rfl⟩, hsize⟩

theorem exists_size_of_bufferSizes (h : (db.bufferSizes w).result = .ok sizes)
    {zone : String} {eras : List Era}
    (hzone : db.zones.get? zone = some eras) :
    ∃ size, sizes.zones.get? zone = some size := by
  obtain ⟨hlt, hleast, hstop⟩ := (bufferSizes_eq_ok.1 h).1
  obtain ⟨size, hsize⟩ :=
    (exists_bufferSizes hlt hleast hstop).1 ⟨sizes, h⟩ zone eras hzone
  exact ⟨size, (get?_of_bufferSizes h).2 ⟨eras, hzone, hsize⟩⟩

theorem greatest_le_iff (h : (db.bufferSizes w).result = .ok sizes)
    {room : Nat} :
    sizes.greatest ≤ room ↔
      ∀ zone size, sizes.zones.get? zone = some size → size.size ≤ room := by
  obtain ⟨_, zones, _, rfl⟩ := bufferSizes_eq_ok.1 h
  exact BufferSizes.greatest_of_le

end Database

end ZoneTables
