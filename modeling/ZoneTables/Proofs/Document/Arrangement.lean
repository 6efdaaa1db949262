import ZoneTables.Compilation
import ZoneTables.Proofs.Database.Places
import ZoneTables.Proofs.Source.Arrangement

/-!
# Documents of arranged texts

A document depends on the records of its texts and on nothing else of them:
not on the texts that the records are spread over, on their order among each
other, or on lines without content.  Only the rules of a policy have to keep
their order.
-/

namespace ZoneTables

def Compilation.document? (c : Compilation) : Option Document :=
  c.result.toOption.map Compiled.document

/-- What was logged, counted and placed before does not matter. -/
theorem Compilation.document?_ofSource (o : CompileOptions) (log : Log)
    (s : Source) :
    (ofSource o log s).document? = (ofSource o [] s.unplaced).document? := by
  unfold ofSource
  dsimp only
  rw [Database.ofSource_unplaced]
  cases (Database.ofSource o.options s).result with
  | error fault => rfl
  | ok db =>
    dsimp only
    cases (db.bufferSizes db.window).result with
    | error fault => rfl
    | ok sizes =>
      dsimp only
      cases (sizes.check o.maxTransitions o.ignoreTooLarge).result with
      | error fault => rfl
      | ok =>
        dsimp only
        cases (Document.ofDatabase db sizes o.version).result <;> rfl

theorem document?_compile (o : CompileOptions) (texts : List SourceText) :
    (compile o texts).document? =
      (Source.empty.readTexts [] texts).records?.bind fun s =>
        (Compilation.ofSource o [] s).document? := by
  unfold compile Reading.records?
  dsimp only
  cases (Source.empty.readTexts [] texts).fault with
  | some fault => rfl
  | none => exact Compilation.document?_ofSource o _ _

theorem Compilation.document?_eq_some {c : Compilation} {d : Document} :
    c.document? = some d ↔ ∃ r, c.result = .ok r ∧ r.document = d := by
  unfold document?
  rw [Option.map_eq_some_iff]
  simp only [except_toOption_eq_some]

/-- Texts of the same blocks are compiled to the same document, or not at
all. -/
theorem Arranges.compile_alike (o : CompileOptions)
    {texts others : List SourceText} {blocks blocks' : List Block}
    (h : Arranges texts blocks) (h' : Arranges others blocks')
    (hsame : SameBlocks blocks blocks') :
    ((∃ c, (compile o texts).result = .ok c) ↔
        ∃ c, (compile o others).result = .ok c) ∧
      ∀ c c', (compile o texts).result = .ok c →
        (compile o others).result = .ok c' → c.document = c'.document := by
  have halike : (compile o texts).document? = (compile o others).document? := by
    rw [document?_compile, document?_compile, h.records?_eq h' hsame]
  have hok : ∀ c : Compilation, (∃ r, c.result = .ok r) ↔
      ∃ d, c.document? = some d := by
    intro c
    constructor
    · rintro ⟨r, hr⟩
      exact ⟨r.document, Compilation.document?_eq_some.2 ⟨r, hr, rfl⟩⟩
    · rintro ⟨d, hd⟩
      obtain ⟨r, hr, _⟩ := Compilation.document?_eq_some.1 hd
      exact ⟨r, hr⟩
  refine ⟨by rw [hok, hok, halike], fun c c' hc hc' => ?_⟩
  have hd := Compilation.document?_eq_some.2 ⟨c, hc, rfl⟩
  have hd' := Compilation.document?_eq_some.2 ⟨c', hc', rfl⟩
  rw [halike, hd'] at hd
  exact (Option.some.inj hd).symm

/-! ## A zone and its rules in one text and in two -/

private def zoneBlock : Block where
  head := "Z Z 1 P C%s 1980".toList
  rest := [" 1 - C".toList]
  starts := by decide +kernel
  continues := by decide +kernel

private def linkBlock : Block where
  head := "L Z Y".toList
  rest := []
  starts := by decide +kernel
  continues := nofun

private def aprilBlock : Block where
  head := "R P 1970 o - Apr 1 2 1 S".toList
  rest := []
  starts := by decide +kernel
  continues := nofun

private def octoberBlock : Block where
  head := "R P 1970 o - Oct 1 2 0 - # off".toList
  rest := []
  starts := by decide +kernel
  continues := nofun

private def apartTexts : List SourceText :=
  [⟨"zones", "Z Z 1 P C%s 1980\n# later\n 1 - C\nL Z Y\n"⟩,
    ⟨"rules", "R P 1970 o - Apr 1 2 1 S\n" ++
      "R P 1970 o - Oct 1 2 0 - # off\n"⟩]

private def togetherTexts : List SourceText :=
  [⟨"all", "R P 1970 o - Apr 1 2 1 S\n\n# link\nL Z Y\n" ++
    "R P 1970 o - Oct 1 2 0 - # off\n" ++
    "Z Z 1 P C%s 1980\n 1 - C"⟩]

private def earlySeventies : CompileOptions :=
  ⟨⟨⟨1970, 1973⟩, .extended, false, none⟩, "", 8, false⟩

theorem Arranges.compile_alike_rulesBetween :
    Arranges apartTexts [zoneBlock, linkBlock, aprilBlock, octoberBlock] ∧
      Arranges togetherTexts
        [aprilBlock, linkBlock, octoberBlock, zoneBlock] ∧
      SameBlocks [zoneBlock, linkBlock, aprilBlock, octoberBlock]
        [aprilBlock, linkBlock, octoberBlock, zoneBlock] ∧
      (compile earlySeventies apartTexts).document?.isSome ∧
      ((∃ c, (compile earlySeventies apartTexts).result = .ok c) ↔
          ∃ c, (compile earlySeventies togetherTexts).result = .ok c) ∧
        ∀ c c', (compile earlySeventies apartTexts).result = .ok c →
          (compile earlySeventies togetherTexts).result = .ok c' →
            c.document = c'.document := by
  have hapart : Arranges apartTexts
      [zoneBlock, linkBlock, aprilBlock, octoberBlock] :=
    ⟨[[zoneBlock, linkBlock], [aprilBlock, octoberBlock]], rfl,
      by decide +kernel⟩
  have htogether : Arranges togetherTexts
      [aprilBlock, linkBlock, octoberBlock, zoneBlock] :=
    ⟨[[aprilBlock, linkBlock, octoberBlock, zoneBlock]], rfl,
      by decide +kernel⟩
  have hsame : SameBlocks [zoneBlock, linkBlock, aprilBlock, octoberBlock]
      [aprilBlock, linkBlock, octoberBlock, zoneBlock] := by
    have hzone : zoneBlock.policy? = none := by decide +kernel
    have hlink : linkBlock.policy? = none := by decide +kernel
    refine ⟨by decide +kernel, fun policy => ?_⟩
    simp [List.filter_cons, hzone, hlink]
  exact ⟨hapart, htogether, hsame, by decide +kernel,
    Arranges.compile_alike earlySeventies hapart htogether hsame⟩

end ZoneTables
