import ZoneTables.CommandLine.FileTree
import ZoneTables.Compilation

/-!
# Settings

What a command line and the environment ask for.
-/

namespace ZoneTables

inductive Switch where
  | tzdbDirectory
  | version
  | startYear
  | untilYear
  | scope
  | strict
  | maxTransitions
  | ignoreTooLarge
  | included
  | output
  | logLevel
  | color
  | noColor
  | quiet
  | help
  | showVersion
deriving DecidableEq

namespace Switch

def all : List Switch :=
  [tzdbDirectory, version, startYear, untilYear, scope, strict,
    maxTransitions, ignoreTooLarge, included, output, logLevel, color,
    noColor, quiet, help, showVersion]

def long : Switch → String
  | tzdbDirectory => "tzdb-dir"
  | version => "tz-version"
  | startYear => "start-year"
  | untilYear => "until-year"
  | scope => "scope"
  | strict => "strict"
  | maxTransitions => "max-transitions"
  | ignoreTooLarge => "ignore-buffer-size-too-large"
  | included => "include"
  | output => "output"
  | logLevel => "log-level"
  | color => "color"
  | noColor => "no-color"
  | quiet => "quiet"
  | help => "help"
  | showVersion => "version"

def short? : Switch → Option Char
  | tzdbDirectory => some 'd'
  | scope => some 's'
  | included => some 'i'
  | output => some 'o'
  | logLevel => some 'l'
  | quiet => some 'q'
  | help => some 'h'
  | showVersion => some 'V'
  | _ => none

def takesValue : Switch → Bool
  | tzdbDirectory | version | startYear | untilYear | scope | maxTransitions
  | included | output | logLevel => true
  | _ => false

/-- The environment variable that stands for the option if it is absent. -/
def environmentName? : Switch → Option String
  | tzdbDirectory => some "TZCOMPILER_TZDB_DIR"
  | version => some "TZCOMPILER_TZ_VERSION"
  | startYear => some "TZCOMPILER_START_YEAR"
  | untilYear => some "TZCOMPILER_UNTIL_YEAR"
  | scope => some "TZCOMPILER_SCOPE"
  | strict => some "TZCOMPILER_STRICT"
  | maxTransitions => some "TZCOMPILER_MAX_TRANSITIONS"
  | ignoreTooLarge => some "TZCOMPILER_IGNORE_BUFFER_SIZE_TOO_LARGE"
  | included => some "TZCOMPILER_INCLUDE"
  | output => some "TZCOMPILER_OUTPUT"
  | logLevel => some "TZCOMPILER_LOG_LEVEL"
  | _ => none

def ofLong? (name : String) : Option Switch :=
  all.find? fun s => s.long == name

def ofShort? (c : Char) : Option Switch :=
  all.find? fun s => s.short? == some c

end Switch

structure Settings where
  files : List String
  tzdbDirectory : Option String
  version : Option String
  startYear : Int
  untilYear : Int
  scope : Scope
  strict : Bool
  maxTransitions : Nat
  ignoreTooLarge : Bool
  included : Option String
  output : Option String
  /-- The least important log lines to print; none for no log. -/
  logLevel : Option Severity
  color : Bool
  noColor : Bool
  quiet : Bool
deriving DecidableEq

namespace Settings

def initial : Settings where
  files := []
  tzdbDirectory := none
  version := none
  startYear := 2000
  untilYear := 2100
  scope := .extended
  strict := false
  maxTransitions := CompileOptions.usualCapacity
  ignoreTooLarge := false
  included := none
  output := none
  logLevel := some .info
  color := false
  noColor := false
  quiet := false

def readPath? (value : String) : Option String :=
  if value = "" then none else some value

def readYear? (value : String) : Option Int :=
  (Text.readInt? value.toList).filter fun year =>
    decide (-2147483648 ≤ year ∧ year ≤ 2147483647)

def readCount? (value : String) : Option Nat :=
  (Text.readUnsigned? value.toList).filter fun n =>
    decide (n ≤ 18446744073709551615)

/-- Reads the name of a severity in any case, or the word for none. -/
def readLogLevel? (value : String) : Option (Option Severity) :=
  let word := String.ofList (value.toList.map Char.toUpper)
  if word = "OFF" then some none
  else
    ([.error, .warn, .info, .debug, .trace] : List Severity).find?
      (fun severity => severity.label == word) |>.map some

def readSwitch? (value : String) : Option Bool :=
  if value = "true" then some true
  else if value = "false" then some false
  else none

def set? (s : Settings) (switch : Switch) (value : String) :
    Option Settings :=
  match switch with
  | .tzdbDirectory =>
    (readPath? value).map fun v => { s with tzdbDirectory := some v }
  | .version => some { s with version := some value }
  | .startYear => (readYear? value).map fun v => { s with startYear := v }
  | .untilYear => (readYear? value).map fun v => { s with untilYear := v }
  | .scope => (Scope.ofName? value).map fun v => { s with scope := v }
  | .strict => (readSwitch? value).map fun v => { s with strict := v }
  | .maxTransitions =>
    (readCount? value).map fun v => { s with maxTransitions := v }
  | .ignoreTooLarge =>
    (readSwitch? value).map fun v => { s with ignoreTooLarge := v }
  | .included => (readPath? value).map fun v => { s with included := some v }
  | .output => (readPath? value).map fun v => { s with output := some v }
  | .logLevel => (readLogLevel? value).map fun v => { s with logLevel := v }
  | .color => (readSwitch? value).map fun v => { s with color := v }
  | .noColor => (readSwitch? value).map fun v => { s with noColor := v }
  | .quiet => (readSwitch? value).map fun v => { s with quiet := v }
  | .help | .showVersion => none

def window (s : Settings) : Window := ⟨s.startYear, s.untilYear⟩

def fault? (s : Settings) (look : String → FileState) : Option String :=
  if s.files.isEmpty && s.tzdbDirectory.isNone then
    some "no input: pass source files or --tzdb-dir"
  else
    match s.tzdbDirectory.filter fun path => !(look path).isDirectory with
    | some path => some s!"tzdb directory '{path}' does not exist"
    | none =>
      if s.maxTransitions = 0 then
        some "--max-transitions must be at least 1"
      else if s.untilYear ≤ s.startYear then
        some (s!"start year {s.startYear} must be before " ++
          s!"until year {s.untilYear}")
      else none

end Settings

end ZoneTables
