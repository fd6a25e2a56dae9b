import BoardHighlight.Program

/-!
# The command line

Everything that a run may look at is read first: the variables, the two directories, the standard
input if it is an input, and whatever stands at the paths that the arguments and the search for a
configuration name. The run itself is `Program.run`.
-/

namespace BoardHighlight.Main
set_option autoImplicit false

/-- The number of a fault; some calls give it with its sign turned. -/
def magnitude (code : UInt32) : UInt32 := min code (0 - code)

/-- A fault without a name of its own, as the system tells it. -/
def unnamed (code : UInt32) (text : String) : ReadFault :=
  .other (some (magnitude code).toNat) "Uncategorized".toList text.toList

def faultOf : IO.Error → ReadFault
  | .noFileOrDirectory .. | .noSuchThing .. => .missing
  | .permissionDenied .. => .denied
  | .inappropriateType _ code _ => if magnitude code = 21 then .isDirectory else .notDirectory
  | .invalidArgument _ code _ => if magnitude code = 36 then .nameTooLong else .nullInPath
  | .otherError code text | .resourceBusy code text | .resourceVanished code text
  | .hardwareFault code text | .illegalOperation code text | .protocolError code text
  | .timeExpired code text | .unsatisfiedConstraints code text | .unsupportedOperation code text
  | .interrupted _ code text | .resourceExhausted _ code text | .alreadyExists _ code text =>
    unnamed code text
  | error => .other none "Other".toList error.toString.toList

/-- What stands at a path of the file system. -/
def stored (path : String) : IO (Except ReadFault Stored) := do
  try
    return .ok (.file (← IO.FS.readBinFile path))
  catch error =>
    match faultOf error with
    | .isDirectory => return .ok .directory
    | fault => return .error fault

def inputsOf : Command → List (List Char)
  | .highlight inputs _ | .check inputs => inputs
  | .tokens input => [input]

/-- The files that a run may look up, and whether it reads the standard input. -/
def needs (env : Environment) (arguments : List (List Char)) : List (List Char) × Bool :=
  match Invocation.read env.vars arguments with
  | .error _ => ([], false)
  | .ok invocation =>
    let inputs := inputsOf invocation.command
    (invocation.config.toList ++ Program.configPaths env ++
      inputs.filter (!Sources.isStandardInput ·), inputs.any Sources.isStandardInput)

def valueOf (name : String) : IO (Option (List Char)) :=
  return (← IO.getEnv name).map String.toList

def directoryOf (name : String) : IO (Option (List Char)) :=
  return (← valueOf name).filter fun path => path.head? == some '/'

partial def readAll (stream : IO.FS.Stream) (read : ByteArray) : IO ByteArray := do
  let bytes ← stream.read 65536
  if bytes.isEmpty then return read else readAll stream (read ++ bytes)

/-- The environment of a run, with the paths that its arguments name looked up. -/
def environment (arguments : List (List Char)) : IO Environment := do
  let mut vars : List (String × List Char) := []
  for name in ["BOGLT_VERBOSE", "BOGLT_CONFIG", "BOGLT_NO_COLOR"] do
    if let some value ← valueOf name then
      vars := (name, value) :: vars
  let home ← directoryOf "HOME"
  let configHome := (← directoryOf "XDG_CONFIG_HOME").or (home.map (· ++ "/.config".toList))
  let known := vars
  let env : Environment :=
    ⟨⟨fun _ => .error .missing, .empty⟩, fun name => known.lookup name, home, configHome⟩
  let (paths, usesInput) := needs env arguments
  let mut found : List (List Char × Except ReadFault Stored) := []
  for path in paths do
    found := (path, ← stored (String.ofList path)) :: found
  let standardInput ← if usesInput then readAll (← IO.getStdin) .empty else pure .empty
  let stored := found
  let files : Lookup := fun path => (stored.lookup path).getD (.error .missing)
  return { env with sources := ⟨files, standardInput⟩ }

def report (outcome : Outcome) : IO UInt32 := do
  IO.print (String.ofList outcome.output)
  if let some failure := outcome.failure then
    IO.eprintln s!"Error: {String.ofList failure.debug}"
  if let some error := outcome.usage then
    IO.eprintln s!"error: {String.ofList error.message}"
  return UInt32.ofNat outcome.exitCode

end BoardHighlight.Main

/-- The program. -/
def main (arguments : List String) : IO UInt32 := do
  let arguments := arguments.map String.toList
  let env ← BoardHighlight.Main.environment arguments
  BoardHighlight.Main.report (BoardHighlight.Program.run env arguments)
