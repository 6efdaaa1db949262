import ZoneTables.CommandLine.Arguments
import ZoneTables.Document.Text
import ZoneTables.Report
import ZoneTables.Source.NameList

/-!
# Running a command

A command reads some files, compiles them and hands on one document, in a file
or on its output.  It looks at the files first, and replaces one of them at the
end.
-/

namespace ZoneTables

/-- Why a command failed, and the causes of that, the nearest first. -/
structure Failure where
  context : String
  causes : List String
deriving DecidableEq

namespace Failure

/-- A text whose lines are indented, the first one behind its number if it has
one. -/
def indented (number : Option Nat) (text : String) : List String :=
  let (first, later) := match number with
    | some n => (s!"    {n}: ", "       ")
    | none => ("    ", "    ")
  match text.splitOn "\n" with
  | [] => [first]
  | line :: rest => (first ++ line) :: rest.map (later ++ ·)

def causeLines (causes : List String) : List String :=
  match causes with
  | [] => []
  | [cause] => ["", "Caused by:"] ++ indented none cause
  | _ => ["", "Caused by:"] ++ causes.zipIdx.flatMap fun (cause, n) =>
      indented (some n) cause

def lines (f : Failure) : List String :=
  ("Error: " ++ f.context) :: causeLines f.causes

end Failure

/-- The files of a release that are read from a directory, in this order. -/
def releaseFiles : List String :=
  ["africa", "antarctica", "asia", "australasia", "europe", "northamerica",
    "southamerica", "etcetera", "backward"]

structure FileReading (α : Type) where
  log : Log
  result : Except Failure α

def readText (look : String → FileState) (context path : String) :
    Except Failure String :=
  match (look path).bytes with
  | .error why => .error ⟨s!"{context} {path}", [why.message]⟩
  | .ok bytes =>
    match String.fromUTF8? bytes with
    | some text => .ok text
    | none =>
      .error ⟨s!"{context} {path}", ["stream did not contain valid UTF-8"]⟩

def readSources (look : String → FileState) :
    List String → FileReading (List SourceText)
  | [] => ⟨[], .ok []⟩
  | path :: rest =>
    match readText look "read source" path with
    | .error failure => ⟨[], .error failure⟩
    | .ok text =>
      let more := readSources look rest
      let size := text.utf8ByteSize
      ⟨⟨.debug, s!"Read {path} ({size} bytes)"⟩ :: more.log,
        more.result.map (⟨Path.fileName path, text⟩ :: ·)⟩

namespace Settings

def sourcePaths (s : Settings) (look : String → FileState) : List String :=
  let release := match s.tzdbDirectory with
    | some directory =>
      (releaseFiles.map (Path.join directory)).filter fun path =>
        (look path).isFile
    | none => []
  release ++ s.files

def versionPath? (s : Settings) : Option String :=
  s.tzdbDirectory.map fun directory => Path.join directory "version"

def readVersion (s : Settings) (look : String → FileState) :
    Except Failure String :=
  match s.version, s.versionPath? with
  | some tag, _ => .ok tag
  | none, none => .ok ""
  | none, some path =>
    if (look path).isFile then
      (readText look "read" path).map fun text =>
        String.ofList (Text.trim text.toList)
    else .ok ""

def readIncluded (s : Settings) (look : String → FileState) :
    Except Failure (Option NameSet) :=
  match s.included with
  | none => .ok none
  | some path =>
    (readText look "read include list" path).map fun text =>
      some (NameList.read text)

def compileOptions (s : Settings) (look : String → FileState) :
    Except Failure CompileOptions := do
  let version ← s.readVersion look
  let included ← s.readIncluded look
  return {
    options := {
      window := s.window
      scope := s.scope
      strict := s.strict
      included }
    version
    maxTransitions := s.maxTransitions
    ignoreTooLarge := s.ignoreTooLarge }

def readPaths (s : Settings) : List String :=
  s.files ++ s.tzdbDirectory.toList ++ s.versionPath?.toList ++
    s.included.toList ++ s.tzdbDirectory.toList.flatMap fun directory =>
      releaseFiles.map (Path.join directory)

def compile (s : Settings) (look : String → FileState) :
    FileReading Document :=
  match s.fault? look with
  | some fault => ⟨[], .error ⟨fault, []⟩⟩
  | none =>
    let sources := readSources look (s.sourcePaths look)
    match sources.result with
    | .error failure => ⟨sources.log, .error failure⟩
    | .ok texts =>
      match s.compileOptions look with
      | .error failure => ⟨sources.log, .error failure⟩
      | .ok options =>
        let compilation := ZoneTables.compile options texts
        let log := sources.log ++ compilation.log
        match compilation.result with
        | .error fault =>
          ⟨log, .error ⟨"compile tz database", [fault.message]⟩⟩
        | .ok compiled => ⟨log, .ok compiled.document⟩

def writeFailure (path : String) : ReplaceError → Failure
  | .noDirectory directory why =>
    ⟨s!"create temp file in {directory}", [why.message]⟩
  | .notReplaced why =>
    ⟨s!"persist {path}",
      [s!"failed to persist temporary file: {why.message}", why.message]⟩

/-- Whether the summary is in color; a terminal shows it unless it is told
not to. -/
def useColor (s : Settings) (terminal : Bool) : Bool :=
  s.color || (!s.noColor && terminal)

end Settings

structure Outcome where
  exitCode : Nat
  output : String
  /-- The lines of messages. -/
  messages : List String

def Document.content (d : Document) : String := d.text ++ "\n"

namespace Outcome

def logLines (s : Settings) (log : Log) : List String :=
  match s.logLevel with
  | none => []
  | some limit => (log.upTo limit).map fun line =>
      "[" ++ line.severity.label ++ "] " ++ line.text

def failed (s : Settings) (log : Log) (failure : Failure) : Outcome :=
  ⟨1, "", logLines s log ++ failure.lines⟩

def succeeded (s : Settings) (terminal : Bool) (time : String) (log : Log)
    (d : Document) : Outcome where
  exitCode := 0
  output := if s.output.isSome then "" else d.content
  messages := logLines s log ++
    if s.quiet then [] else Report.lines (s.useColor terminal) time d

def refused : Refusal → Outcome
  | .usage fault => ⟨2, "", ["error: " ++ fault.message]⟩
  | .help =>
    ⟨0, "Compile IANA tz database sources into zone tables.\n", []⟩
  | .version => ⟨0, "zone-tables 0.1.0\n", []⟩

end Outcome

def wroteLine (path : String) : LogLine := ⟨.info, "Wrote " ++ path⟩

/-- A command in a tree of files: its outcome and the files after it.  The names
are those that are tried for a new file beside the output. -/
def runCommandNaming (names : List String) (tree : FileTree)
    (arguments : List String) (environment : String → Option String) :
    Outcome × FileTree :=
  match Settings.read arguments environment with
  | .error refusal => (.refused refusal, tree)
  | .ok s =>
    let reading := s.compile tree.look
    match reading.result with
    | .error failure => (.failed s reading.log failure, tree)
    | .ok d =>
      match s.output with
      | none => (.succeeded s false "" reading.log d, tree)
      | some path =>
        let replacement := tree.replace names path d.content.toUTF8
        match replacement.result with
        | .error why =>
          (.failed s reading.log (Settings.writeFailure path why),
            replacement.tree)
        | .ok () =>
          (.succeeded s false "" (reading.log ++ [wroteLine path]) d,
            replacement.tree)

def runCommand (tree : FileTree) (arguments : List String)
    (environment : String → Option String) : Outcome × FileTree :=
  runCommandNaming tree.newNames tree arguments environment

end ZoneTables
