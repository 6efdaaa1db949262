import ZoneTables.CommandLine.Settings

/-!
# Arguments

Arguments are options and files in any order.  An option is given by its name
or its letter; letters can stand together behind one hyphen.  A value follows
as the next argument, behind an equals sign, or directly behind a letter.
Behind two hyphens alone there are only files.  No option is given twice.
-/

namespace ZoneTables

inductive UsageError where
  | unknownSwitch (text : String)
  | missingValue (switch : Switch)
  | unexpectedValue (switch : Switch) (value : String)
  | invalidValue (switch : Switch) (value : String)
  | invalidFile
  | repeated (switch : Switch)
  | conflict (former latter : Switch)
deriving DecidableEq

namespace UsageError

def message : UsageError → String
  | unknownSwitch text => s!"unexpected argument '{text}' found"
  | missingValue switch =>
    s!"a value is required for '--{switch.long}' but none was supplied"
  | unexpectedValue switch value =>
    s!"unexpected value '{value}' for '--{switch.long}' found"
  | invalidValue switch value =>
    s!"invalid value '{value}' for '--{switch.long}'"
  | invalidFile => "a file needs a name"
  | repeated switch =>
    s!"the argument '--{switch.long}' cannot be used multiple times"
  | conflict former latter =>
    s!"the argument '--{former.long}' cannot be used with " ++
      s!"'--{latter.long}'"

end UsageError

inductive Refusal where
  | usage (fault : UsageError)
  | help
  | version
deriving DecidableEq

structure ArgumentState where
  settings : Settings
  given : List Switch
  /-- The option whose value is the next argument. -/
  pending : Option Switch
  onlyFiles : Bool

namespace ArgumentState

def initial : ArgumentState := ⟨.initial, [], none, false⟩

def settled (s : ArgumentState) : Except Refusal ArgumentState :=
  match s.pending with
  | some switch => .error (.usage (.missingValue switch))
  | none => .ok s

def give (s : ArgumentState) (switch : Switch) (value : String) :
    Except Refusal ArgumentState :=
  match s.settings.set? switch value with
  | none => .error (.usage (.invalidValue switch value))
  | some settings =>
    if s.given.contains switch then .error (.usage (.repeated switch))
    else .ok { s with
      settings, given := switch :: s.given, pending := none }

def turnOn (s : ArgumentState) (switch : Switch) :
    Except Refusal ArgumentState :=
  match switch with
  | .help => .error .help
  | .showVersion => .error .version
  | _ => s.give switch "true"

def readLong (s : ArgumentState) (text : List Char) :
    Except Refusal ArgumentState := do
  let s ← s.settled
  let name := String.ofList (text.takeWhile (· != '='))
  match Switch.ofLong? name, text.dropWhile (· != '=') with
  | none, _ => .error (.usage (.unknownSwitch ("--" ++ name)))
  | some switch, [] =>
    if switch.takesValue then .ok { s with pending := some switch }
    else s.turnOn switch
  | some switch, _ :: value =>
    if switch.takesValue then s.give switch (String.ofList value)
    else .error (.usage (.unexpectedValue switch (String.ofList value)))

def readShort (s : ArgumentState) :
    List Char → Except Refusal ArgumentState
  | [] => .ok s
  | c :: rest => do
    let s ← s.settled
    match Switch.ofShort? c with
    | none => .error (.usage (.unknownSwitch ("-" ++ String.ofList [c])))
    | some switch =>
      if switch.takesValue then
        match rest with
        | [] => .ok { s with pending := some switch }
        | '=' :: value => s.give switch (String.ofList value)
        | value => s.give switch (String.ofList value)
      else
        let s ← s.turnOn switch
        readShort s rest

def readFile (s : ArgumentState) (path : String) :
    Except Refusal ArgumentState :=
  if path = "" then .error (.usage .invalidFile)
  else .ok { s with
    settings := { s.settings with files := s.settings.files ++ [path] } }

def read (s : ArgumentState) (argument : String) :
    Except Refusal ArgumentState :=
  if s.onlyFiles then s.readFile argument
  else
    match argument.toList with
    | ['-', '-'] => do
      let s ← s.settled
      .ok { s with onlyFiles := true }
    | '-' :: '-' :: text => s.readLong text
    | '-' :: c :: rest => s.readShort (c :: rest)
    | _ =>
      match s.pending with
      | some switch => s.give switch argument
      | none => s.readFile argument

/-- Takes a variable of the environment for an option that is absent. -/
def readVariable (environment : String → Option String) (s : ArgumentState)
    (switch : Switch) : Except Refusal ArgumentState :=
  if s.given.contains switch then .ok s
  else
    match switch.environmentName?.bind environment with
    | some value => s.give switch value
    | none => .ok s

end ArgumentState

namespace Settings

def read (arguments : List String) (environment : String → Option String) :
    Except Refusal Settings := do
  let s ← arguments.foldlM ArgumentState.read .initial
  let s ← s.settled
  let s ← Switch.all.foldlM (ArgumentState.readVariable environment) s
  if s.settings.color && s.settings.noColor then
    .error (.usage (.conflict .color .noColor))
  else .ok s.settings

end Settings

end ZoneTables
