import ZoneTables.CommandLine.Run

/-!
# The command

Fetches what the command reads, asks what is to be done, and does it.
-/

namespace ZoneTables

def fileErrorOf : IO.Error → FileError
  | .noFileOrDirectory .. => .notFound
  | .inappropriateType none .. => .isADirectory
  | .inappropriateType (some _) _ details =>
    if details.toLower = "is a directory" then .isADirectory
    else .notADirectory
  | fault@(.invalidArgument (some _) _ details) =>
    if details.toLower.endsWith "name too long" then .nameTooLong
    else .other (toString fault)
  | .permissionDenied .. => .denied
  | .resourceBusy .. => .busy
  | fault => .other (toString fault)

def fetchState (path : String) : IO FileState := do
  try
    return .file (← IO.FS.readBinFile path)
  catch fault =>
    match fileErrorOf fault with
    | .isADirectory => return .directory
    | why => return .absent why

def replaceFile (path : String) (bytes : ByteArray) :
    IO (Except ReplaceError Unit) := do
  let directory := Path.parent path
  let beside := Path.join directory s!".zone-tables-{← IO.monoNanosNow}"
  try
    IO.FS.writeBinFile beside bytes
  catch fault =>
    return .error (.noDirectory directory (fileErrorOf fault))
  try
    IO.FS.rename beside path
    return .ok ()
  catch fault =>
    IO.FS.removeFile beside
    return .error (.notReplaced (fileErrorOf fault))

def Outcome.print (outcome : Outcome) : IO UInt32 := do
  let output ← IO.getStdout
  output.putStr outcome.output
  output.flush
  for line in outcome.messages do
    IO.eprintln line
  return UInt32.ofNat outcome.exitCode

def runSettings (s : Settings) : IO Outcome := do
  let start ← IO.monoMsNow
  let states ← s.readPaths.mapM fun path => do
    return (path, ← fetchState path)
  let look := fun path => (states.lookup path).getD (.absent .notFound)
  let reading := s.compile look
  match reading.result with
  | .error failure => return .failed s reading.log failure
  | .ok d =>
    let terminal ← (← IO.getStderr).isTty
    let written ← match s.output with
      | none => pure (.ok [])
      | some path => do
        let result ← replaceFile path d.content.toUTF8
        pure (result.map fun _ => [wroteLine path])
    match written, s.output with
    | .error why, path =>
      return .failed s reading.log
        (Settings.writeFailure (path.getD "") why)
    | .ok lines, _ =>
      let stop ← IO.monoMsNow
      return .succeeded s terminal s!"{stop - start}ms"
        (reading.log ++ lines) d

end ZoneTables

def main (arguments : List String) : IO UInt32 := do
  let environment ← ZoneTables.Switch.all.filterMapM fun switch =>
    match switch.environmentName? with
    | none => pure none
    | some name => do return (← IO.getEnv name).map fun value => (name, value)
  match ZoneTables.Settings.read arguments fun name =>
      environment.lookup name with
  | .error refusal => (ZoneTables.Outcome.refused refusal).print
  | .ok s => do (← ZoneTables.runSettings s).print
