import ZoneTables.CommandLine.Run
import ZoneTables.Proofs.CommandLine.Replacement

/-!
# What a command leaves behind

A command ends in one of five ways, of which two are successes.  If it fails it
has printed nothing and left all files as they were, however late it fails.  If
it succeeds it has handed on one document: on its output, or as the content of
one file.
-/

namespace ZoneTables

/-! ## Documents of files -/

def SourceText.IsOf (look : String → FileState) (path : String)
    (text : SourceText) : Prop :=
  text.name = Path.fileName path ∧
    ∃ bytes, look path = .file bytes ∧
      String.fromUTF8? bytes = some text.text

theorem readText_eq_ok {look : String → FileState} {context path text : String} :
    readText look context path = .ok text ↔
      ∃ bytes, look path = .file bytes ∧ String.fromUTF8? bytes = some text := by
  unfold readText
  cases hlook : look path with
  | absent why => simp [FileState.bytes]
  | directory => simp [FileState.bytes]
  | file bytes =>
    simp only [FileState.bytes, FileState.file.injEq, exists_eq_left']
    cases String.fromUTF8? bytes <;> simp

theorem readSources_eq_ok {look : String → FileState} {paths : List String}
    {texts : List SourceText} :
    (readSources look paths).result = .ok texts ↔
      List.Forall₂ (SourceText.IsOf look) paths texts := by
  induction paths generalizing texts with
  | nil =>
    rw [List.forall₂_nil_left_iff, readSources]
    exact ⟨fun h => by cases h; rfl, fun h => by rw [h]⟩
  | cons path rest ih =>
    rw [List.forall₂_cons_left_iff, readSources]
    constructor
    · intro h
      split at h
      · cases h
      · rename_i text htext
        obtain ⟨more, hmore, rfl⟩ := except_map_eq_ok.1 h
        exact ⟨⟨Path.fileName path, text⟩, more,
          ⟨rfl, readText_eq_ok.1 htext⟩, ih.1 hmore, rfl⟩
    · rintro ⟨⟨name, text⟩, more, ⟨hname, htext⟩, hmore, rfl⟩
      dsimp only at hname htext
      rw [readText_eq_ok.2 htext, hname]
      exact except_map_eq_ok.2 ⟨more, ih.2 hmore, rfl⟩

/-- Whether settings make a document of the files: nothing is wrong with them,
and the document is what the source files are compiled to. -/
structure Settings.Makes (s : Settings) (look : String → FileState)
    (d : Document) : Prop where
  sound : s.fault? look = none
  compiled : ∃ texts options compiled,
    List.Forall₂ (SourceText.IsOf look) (s.sourcePaths look) texts ∧
      s.compileOptions look = .ok options ∧
      (ZoneTables.compile options texts).result = .ok compiled ∧
      compiled.document = d

theorem Settings.compile_eq_ok_iff {s : Settings} {look : String → FileState}
    {d : Document} : (s.compile look).result = .ok d ↔ s.Makes look d := by
  unfold compile
  constructor
  · intro h
    split at h
    · cases h
    · rename_i hsound
      dsimp only at h
      split at h
      · cases h
      · rename_i texts htexts
        split at h
        · cases h
        · rename_i options hoptions
          split at h
          · cases h
          · rename_i compiled hcompiled
            cases h
            exact ⟨hsound, texts, options, compiled,
              readSources_eq_ok.1 htexts, hoptions, hcompiled, rfl⟩
  · rintro ⟨hsound, texts, options, compiled, htexts, hoptions, hcompiled, rfl⟩
    rw [hsound]
    dsimp only
    rw [readSources_eq_ok.2 htexts]
    dsimp only
    rw [hoptions]
    dsimp only
    rw [hcompiled]

/-! ## Ways to end -/

section Runs

variable {names : List String} {tree : FileTree} {arguments : List String}
  {environment : String → Option String}

/-- How a command can end: with arguments that give no settings, without a
document, with the document on its output, with a document that could not be
written, or with the document in its file. -/
inductive CommandEnds (names : List String) (tree : FileTree)
    (arguments : List String) (environment : String → Option String) :
    Outcome × FileTree → Prop where
  | refused {refusal : Refusal} :
    Settings.read arguments environment = .error refusal →
    CommandEnds names tree arguments environment (.refused refusal, tree)
  | unmade {s : Settings} (log : Log) (failure : Failure) :
    Settings.read arguments environment = .ok s →
    (∀ d, ¬ s.Makes tree.look d) →
    CommandEnds names tree arguments environment (.failed s log failure, tree)
  | printed {s : Settings} {d : Document} (log : Log) :
    Settings.read arguments environment = .ok s → s.Makes tree.look d →
    s.output = none →
    CommandEnds names tree arguments environment
      (.succeeded s false "" log d, tree)
  | unwritten {s : Settings} {d : Document} {path : String}
    {why : ReplaceError} (log : Log) :
    Settings.read arguments environment = .ok s → s.Makes tree.look d →
    s.output = some path →
    (tree.replace names path d.content.toUTF8).result = .error why →
    CommandEnds names tree arguments environment
      (.failed s log (Settings.writeFailure path why), tree)
  | written {s : Settings} {d : Document} {path : String} (log : Log) :
    Settings.read arguments environment = .ok s → s.Makes tree.look d →
    s.output = some path →
    (tree.replace names path d.content.toUTF8).result = .ok () →
    CommandEnds names tree arguments environment
      (.succeeded s false "" log d,
        (tree.replace names path d.content.toUTF8).tree)

theorem commandEnds_runCommandNaming :
    CommandEnds names tree arguments environment
      (runCommandNaming names tree arguments environment) := by
  unfold runCommandNaming
  cases hread : Settings.read arguments environment with
  | error refusal => exact .refused hread
  | ok s =>
    dsimp only
    cases hcompile : (s.compile tree.look).result with
    | error failure =>
      refine .unmade _ failure hread fun d hd => ?_
      rw [Settings.compile_eq_ok_iff.2 hd] at hcompile
      cases hcompile
    | ok d =>
      have hmakes := Settings.compile_eq_ok_iff.1 hcompile
      dsimp only
      cases houtput : s.output with
      | none => exact .printed _ hread hmakes houtput
      | some path =>
        dsimp only
        cases hresult :
            (tree.replace names path d.content.toUTF8).result with
        | error why =>
          rw [FileTree.tree_replace_of_error hresult]
          exact .unwritten _ hread hmakes houtput hresult
        | ok done => exact .written _ hread hmakes houtput hresult

/-- Whether a command with settings handed on a document and nothing else: on
its output, or as the content of the file for it. -/
def Settings.HandsOn (s : Settings) (tree : FileTree) (d : Document)
    (run : Outcome × FileTree) : Prop :=
  match s.output with
  | none => run.1.output = d.text ++ "\n" ∧ run.2 = tree
  | some path =>
    run.1.output = "" ∧ tree.Replaces run.2 path (d.text ++ "\n").toUTF8

def Settings.CanWrite (s : Settings) (names : List String) (tree : FileTree) :
    Prop :=
  ∀ path, s.output = some path →
    (∃ beside, tree.newFilePlace (Path.parent path) names = .ok beside) ∧
      ∃ place, tree.FilePlace path place

namespace CommandEnds

variable {run : Outcome × FileTree}

theorem nothing_of_failure
    (h : CommandEnds names tree arguments environment run)
    (hexit : run.1.exitCode ≠ 0) : run.1.output = "" ∧ run.2 = tree := by
  cases h with
  | @refused refusal _ =>
    cases refusal with
    | usage fault => exact ⟨rfl, rfl⟩
    | help => exact absurd rfl hexit
    | version => exact absurd rfl hexit
  | unmade log failure _ _ => exact ⟨rfl, rfl⟩
  | printed log _ _ _ => exact absurd rfl hexit
  | unwritten log _ _ _ _ => exact ⟨rfl, rfl⟩
  | written log _ _ _ _ => exact absurd rfl hexit

theorem handsOn_of_success
    (h : CommandEnds names tree arguments environment run)
    (hhelp : Settings.read arguments environment ≠ .error .help)
    (hversion : Settings.read arguments environment ≠ .error .version)
    (hexit : run.1.exitCode = 0) :
    ∃ s d, Settings.read arguments environment = .ok s ∧
      s.Makes tree.look d ∧ s.HandsOn tree d run ∧ s.CanWrite names tree := by
  cases h with
  | @refused refusal hread =>
    cases refusal with
    | usage fault => cases hexit
    | help => exact absurd hread hhelp
    | version => exact absurd hread hversion
  | unmade log failure _ _ => cases hexit
  | @printed s d log hread hmakes houtput =>
    refine ⟨s, d, hread, hmakes, ?_, ?_⟩
    · unfold Settings.HandsOn Outcome.succeeded
      rw [houtput]
      exact ⟨rfl, rfl⟩
    · intro path hpath
      rw [houtput] at hpath
      cases hpath
  | unwritten log _ _ _ _ => cases hexit
  | @written s d path log hread hmakes houtput hresult =>
    refine ⟨s, d, hread, hmakes, ?_, ?_⟩
    · unfold Settings.HandsOn Outcome.succeeded
      rw [houtput]
      exact ⟨rfl, FileTree.replaces_of_ok hresult⟩
    · intro path' hpath
      rw [houtput] at hpath
      cases hpath
      exact FileTree.result_replace_eq_ok_iff.1 hresult

theorem success_of_makes
    (h : CommandEnds names tree arguments environment run) {s : Settings}
    {d : Document} (hread : Settings.read arguments environment = .ok s)
    (hmakes : s.Makes tree.look d) (hwrite : s.CanWrite names tree) :
    run.1.exitCode = 0 := by
  cases h with
  | refused hrefused =>
    rw [hread] at hrefused
    cases hrefused
  | unmade log failure hread' hunmade =>
    rw [hread] at hread'
    cases hread'
    exact absurd hmakes (hunmade d)
  | printed log _ _ _ => rfl
  | @unwritten s' d' path why log hread' _ houtput hresult =>
    rw [hread] at hread'
    cases hread'
    rw [FileTree.result_replace_eq_ok_iff.2 (hwrite path houtput)] at hresult
    cases hresult
  | written log _ _ _ _ => rfl

end CommandEnds

/-- A command that is not asked about itself does all or nothing: a failure has
printed nothing and left all files as they were, and a success has handed on the
document of the source files, on its output or as the content of one file.  It
succeeds exactly if there is a document and it can be written. -/
theorem runCommandNaming_all_or_nothing
    (hhelp : Settings.read arguments environment ≠ .error .help)
    (hversion : Settings.read arguments environment ≠ .error .version)
    {outcome : Outcome} {after : FileTree}
    (hrun : runCommandNaming names tree arguments environment =
      (outcome, after)) :
    (outcome.exitCode ≠ 0 → outcome.output = "" ∧ after = tree) ∧
    (outcome.exitCode = 0 →
      ∃ s d, Settings.read arguments environment = .ok s ∧
        s.Makes tree.look d ∧ s.HandsOn tree d (outcome, after)) ∧
    (outcome.exitCode = 0 ↔
      ∃ s d, Settings.read arguments environment = .ok s ∧
        s.Makes tree.look d ∧ s.CanWrite names tree) := by
  have hends : CommandEnds names tree arguments environment
      (outcome, after) := hrun ▸ commandEnds_runCommandNaming
  refine ⟨hends.nothing_of_failure, fun hexit => ?_, fun hexit => ?_, ?_⟩
  · obtain ⟨s, d, hread, hmakes, hhands, _⟩ :=
      hends.handsOn_of_success hhelp hversion hexit
    exact ⟨s, d, hread, hmakes, hhands⟩
  · obtain ⟨s, d, hread, hmakes, _, hwrite⟩ :=
      hends.handsOn_of_success hhelp hversion hexit
    exact ⟨s, d, hread, hmakes, hwrite⟩
  · rintro ⟨s, d, hread, hmakes, hwrite⟩
    exact hends.success_of_makes hread hmakes hwrite

/-- A command that is not asked about itself succeeds exactly if there is a
document and, where a file is named for it, the directory of the file is there
and the path allows a file. -/
theorem exitCode_runCommand_eq_zero_iff
    (hhelp : Settings.read arguments environment ≠ .error .help)
    (hversion : Settings.read arguments environment ≠ .error .version) :
    (runCommand tree arguments environment).1.exitCode = 0 ↔
      ∃ s d, Settings.read arguments environment = .ok s ∧
        s.Makes tree.look d ∧
        ∀ path, s.output = some path →
          tree.look (Path.parent path) = .directory ∧
            ∃ place, tree.FilePlace path place := by
  have hwrite : ∀ s : Settings, s.CanWrite tree.newNames tree ↔
      ∀ path, s.output = some path →
        tree.look (Path.parent path) = .directory ∧
          ∃ place, tree.FilePlace path place := by
    intro s
    unfold Settings.CanWrite
    simp only [FileTree.exists_newFilePlace_newNames]
  simp only [← hwrite]
  have hends : CommandEnds tree.newNames tree arguments environment
      (runCommand tree arguments environment) := commandEnds_runCommandNaming
  constructor
  · intro hexit
    obtain ⟨s, d, hread, hmakes, _, hcan⟩ :=
      hends.handsOn_of_success hhelp hversion hexit
    exact ⟨s, d, hread, hmakes, hcan⟩
  · rintro ⟨s, d, hread, hmakes, hcan⟩
    exact hends.success_of_makes hread hmakes hcan

end Runs

def workTree : FileTree :=
  ((FileTree.empty.workIn "/w").addFile "src" "Z Z 0 - A\n".toUTF8).addFile
    "out" "old".toUTF8

/-- The older document is replaced, and nothing changes if a directory is given
in its place. -/
theorem runCommandNaming_all_or_nothing_workTree :
    (∃ outcome after, runCommandNaming [".tmp"] workTree
        ["-q", "-o", "out", "src"] (fun _ => none) = (outcome, after) ∧
      outcome.exitCode = 0 ∧
      ∃ s d, Settings.read ["-q", "-o", "out", "src"] (fun _ => none) = .ok s ∧
        s.output = some "out" ∧ s.Makes workTree.look d ∧
        s.HandsOn workTree d (outcome, after)) ∧
    ∃ outcome after, runCommandNaming [".tmp"] workTree
        ["-q", "-o", "/w", "src"] (fun _ => none) = (outcome, after) ∧
      outcome.exitCode = 1 ∧ outcome.output = "" ∧ after = workTree := by
  constructor
  · have hread : ∃ s ∈ (Settings.read ["-q", "-o", "out", "src"]
        fun _ => none).toOption, s.output = some "out" := by decide +kernel
    have hexit : (runCommandNaming [".tmp"] workTree
        ["-q", "-o", "out", "src"] fun _ => none).1.exitCode = 0 := by
      decide +kernel
    obtain ⟨s, hread, houtput⟩ := exists_eq_ok_of_toOption hread
    generalize hrun : runCommandNaming [".tmp"] workTree
      ["-q", "-o", "out", "src"] (fun _ => none) = run at hexit
    obtain ⟨outcome, after⟩ := run
    obtain ⟨_, hdone, _⟩ := runCommandNaming_all_or_nothing
      (by rw [hread]; exact nofun) (by rw [hread]; exact nofun) hrun
    obtain ⟨s', d, hread', hmakes, hhands⟩ := hdone hexit
    rw [hread] at hread'
    cases hread'
    exact ⟨outcome, after, rfl, hexit, s, d, hread, houtput, hmakes, hhands⟩
  · have hread : ∃ s ∈ (Settings.read ["-q", "-o", "/w", "src"]
        fun _ => none).toOption, s.output = some "/w" := by decide +kernel
    have hexit : (runCommandNaming [".tmp"] workTree
        ["-q", "-o", "/w", "src"] fun _ => none).1.exitCode = 1 := by
      decide +kernel
    obtain ⟨s, hread, _⟩ := exists_eq_ok_of_toOption hread
    generalize hrun : runCommandNaming [".tmp"] workTree
      ["-q", "-o", "/w", "src"] (fun _ => none) = run at hexit
    obtain ⟨outcome, after⟩ := run
    obtain ⟨hnothing, _⟩ := runCommandNaming_all_or_nothing
      (by rw [hread]; exact nofun) (by rw [hread]; exact nofun) hrun
    obtain ⟨houtput, hafter⟩ := hnothing (by rw [hexit]; exact Nat.one_ne_zero)
    exact ⟨outcome, after, rfl, hexit, houtput, hafter⟩

end ZoneTables
