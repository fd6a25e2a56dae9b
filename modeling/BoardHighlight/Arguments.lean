/-!
# Command line arguments

A command line is options, the name of a command, and the options and inputs of the command. The
options `--verbose`, `--config` and `--no-color` may stand on either side of the command's name; of
two values the one behind the name counts, and a value from the environment counts if there is no
other. On one side an option may be given once.

Long options take a value behind an equals sign or as the next argument; short ones may be joined
behind one dash, and take the rest of their argument as the value. A single dash is an input, and
behind a double dash every argument is one. `--version` and `--help` are answered as soon as they
are met, and so is the word `help` in the place of a command, with the topic behind it.
-/

namespace BoardHighlight
set_option autoImplicit false

inductive CommandName where
  | highlight
  | tokens
  | check
  deriving DecidableEq

namespace CommandName

def all : List CommandName := [highlight, tokens, check]

def text : CommandName → String
  | highlight => "highlight"
  | tokens => "tokens"
  | check => "check"

def ofText? (text : List Char) : Option CommandName := all.find? (·.text.toList == text)

end CommandName

/-- Options that are there or not. -/
inductive Flag where
  | verbose
  | noColour
  | version
  | help
  deriving DecidableEq

namespace Flag

def ofLong? (name : List Char) : Option Flag :=
  if name == "verbose".toList then some verbose
  else if name == "no-color".toList then some noColour
  else if name == "version".toList then some version
  else if name == "help".toList then some help
  else none

def ofShort? (c : Char) : Option Flag :=
  if c == 'v' then some verbose
  else if c == 'V' then some version
  else if c == 'h' then some help
  else none

end Flag

/-- Options with a value. -/
inductive Setting where
  | config
  | format
  deriving DecidableEq

namespace Setting

/-- The format is a setting of the highlight command only. -/
def allowed (command : Option CommandName) (setting : Setting) : Bool :=
  setting = config || command = some .highlight

def ofLong? (command : Option CommandName) (name : List Char) : Option Setting :=
  if name == "config".toList then some config
  else if name == "format".toList && allowed command format then some format
  else none

def ofShort? (command : Option CommandName) (c : Char) : Option Setting :=
  if c == 'c' then some config
  else if c == 'F' && allowed command format then some format
  else none

end Setting

/-- Why a command line is refused. -/
inductive UsageError where
  | unknownOption (argument : List Char)
  | unknownCommand (argument : List Char)
  | missingCommand
  | missingValue (setting : Setting)
  | unexpectedValue (flag : Flag)
  | emptyPath
  | repeated
  | missingInput
  | extraInput (argument : List Char)
  | badVariable (name : String)
  deriving DecidableEq

namespace UsageError

def message : UsageError → List Char
  | unknownOption argument => "unknown option ".toList ++ argument
  | unknownCommand argument => "unknown command ".toList ++ argument
  | missingCommand => "a command is needed".toList
  | missingValue .config => "--config needs a path".toList
  | missingValue .format => "--format needs a name".toList
  | unexpectedValue _ => "this option takes no value".toList
  | emptyPath => "a path is empty".toList
  | repeated => "an option is given twice".toList
  | missingInput => "an input is needed".toList
  | extraInput argument => "unexpected argument ".toList ++ argument
  | badVariable name => name.toList ++ " is neither true nor false".toList

end UsageError

/-- What help can be had on: the program, a command, or help itself. -/
inductive HelpTopic where
  | program
  | command (name : CommandName)
  | help
  deriving DecidableEq

namespace HelpTopic

def ofCommand? (command : Option CommandName) : HelpTopic :=
  (command.map HelpTopic.command).getD program

def ofText? (text : List Char) : Option HelpTopic :=
  if text == "help".toList then some help else (CommandName.ofText? text).map command

end HelpTopic

/-- How reading a command line may end early. -/
inductive Halt where
  | refused (error : UsageError)
  | version (command : Option CommandName)
  | help (topic : HelpTopic) (full : Bool)
  deriving DecidableEq

/-- What the arguments behind the word `help` ask for: one topic at most, by its bare name. -/
def Halt.ofTopics : List (List Char) → Halt
  | [] => .help .program true
  | word :: rest =>
    match HelpTopic.ofText? word with
    | none => .refused (.unknownCommand word)
    | some topic =>
      match rest with
      | [] => .help topic true
      | next :: _ => .refused (.unknownCommand next)

/-- What has been given on one side of the command's name. -/
structure Given where
  verbose : Bool := false
  noColour : Bool := false
  config : Option (List Char) := none
  format : Option (List Char) := none
  inputs : List (List Char) := []

namespace Given

variable (command : Option CommandName)

/-- Help is full if the option is written out. -/
def addFlag (full : Bool) (given : Given) : Flag → Except Halt Given
  | .version => .error (.version command)
  | .help => .error (.help (.ofCommand? command) full)
  | .verbose =>
    if given.verbose then .error (.refused .repeated) else .ok { given with verbose := true }
  | .noColour =>
    if given.noColour then .error (.refused .repeated) else .ok { given with noColour := true }

/-- Paths are not empty; the name of a format may be. -/
def addSetting (given : Given) (value : List Char) : Setting → Except Halt Given
  | .config =>
    if given.config.isSome then .error (.refused .repeated)
    else if value.isEmpty then .error (.refused .emptyPath)
    else .ok { given with config := some value }
  | .format =>
    if given.format.isSome then .error (.refused .repeated)
    else .ok { given with format := some value }

/-- The tokens command takes one input. -/
def addInput (given : Given) (path : List Char) : Except Halt Given :=
  if command = some .tokens && !given.inputs.isEmpty then .error (.refused (.extraInput path))
  else if path.isEmpty then .error (.refused .emptyPath)
  else .ok { given with inputs := given.inputs ++ [path] }

/-- Reads the letters of joined short options. A setting takes what follows its letter, without an
equals sign in front, or else the next argument. -/
def addLetters (given : Given) : List Char → Except Halt (Given × Option Setting)
  | [] => .ok (given, none)
  | c :: rest =>
    match Flag.ofShort? c with
    | some flag => do addLetters (← given.addFlag command false flag) rest
    | none =>
      match Setting.ofShort? command c with
      | none => .error (.refused (.unknownOption ['-', c]))
      | some setting =>
        match rest with
        | [] => .ok (given, some setting)
        | '=' :: value => do return (← given.addSetting value setting, none)
        | value => do return (← given.addSetting value setting, none)

/-- Reads a long option with the value behind its equals sign, if there is one. -/
def addLong (given : Given) (name : List Char) (value : Option (List Char)) :
    Except Halt (Given × Option Setting) :=
  match Flag.ofLong? name with
  | some flag =>
    match value with
    | some _ => .error (.refused (.unexpectedValue flag))
    | none => do return (← given.addFlag command true flag, none)
  | none =>
    match Setting.ofLong? command name with
    | none => .error (.refused (.unknownOption name))
    | some setting =>
      match value with
      | some value => do return (← given.addSetting value setting, none)
      | none => .ok (given, some setting)

end Given

/-- How an argument looks. -/
inductive Shape where
  | input
  | separator
  | long (name : List Char) (value : Option (List Char))
  | letters (cluster : List Char)

namespace Shape

/-- Sets the value of a long option apart. -/
def ofLong (body : List Char) : Shape :=
  match body.dropWhile (· != '=') with
  | [] => long body none
  | _ :: value => long (body.takeWhile (· != '=')) (some value)

def ofArgument : List Char → Shape
  | ['-', '-'] => separator
  | '-' :: '-' :: body => ofLong body
  | '-' :: c :: rest => letters (c :: rest)
  | _ => input

end Shape

/-- Reads one option; the answer may be a setting whose value is the next argument. -/
def readOption (command : Option CommandName) (given : Given) :
    Shape → Except Halt (Given × Option Setting)
  | .long name value => given.addLong command name value
  | .letters cluster => given.addLetters command cluster
  | .input | .separator => .ok (given, none)

/-- The value of a setting, which must not look like an option. -/
def readValue (setting : Setting) (argument : List Char) : Except Halt (List Char) :=
  match Shape.ofArgument argument with
  | .input => .ok argument
  | _ => .error (.refused (.missingValue setting))

/-- Reads the arguments behind the command's name. -/
def readBehind (command : CommandName) (given : Given) (pending : Option Setting) :
    List (List Char) → Except Halt Given
  | [] =>
    match pending with
    | some setting => .error (.refused (.missingValue setting))
    | none => .ok given
  | argument :: rest =>
    match pending with
    | some setting => do
      let value ← readValue setting argument
      readBehind command (← given.addSetting value setting) none rest
    | none =>
      match Shape.ofArgument argument with
      | .separator => rest.foldlM (fun given path => given.addInput (some command) path) given
      | .input => do readBehind command (← given.addInput (some command) argument) none rest
      | shape => do
        let (given, pending) ← readOption (some command) given shape
        readBehind command given pending rest

/-- Reads the arguments in front of the command's name, and leaves those behind it. A value that is
an argument of its own is only judged when the next option is met or when all arguments have been
read, so what has been given is itself the outcome of the last judgement. -/
def readFront (given : Except Halt Given) (pending : Option Setting) :
    List (List Char) → Except Halt (Except Halt Given × CommandName × List (List Char))
  | [] =>
    match pending with
    | some setting => .error (.refused (.missingValue setting))
    | none => .error (.refused .missingCommand)
  | argument :: rest =>
    match pending with
    | some setting => do
      let value ← readValue setting argument
      readFront (do (← given).addSetting value setting) none rest
    | none =>
      match Shape.ofArgument argument with
      | .separator => .error (.refused .missingCommand)
      | .input =>
        match HelpTopic.ofText? argument with
        | some (.command command) => .ok (given, command, rest)
        | some _ => .error (.ofTopics rest)
        | none => .error (.refused (.unknownCommand argument))
      | shape => do
        let (given, pending) ← readOption none (← given) shape
        readFront (.ok given) pending rest

/-- A command with all that it needs. -/
inductive Command where
  | highlight (inputs : List (List Char)) (format : Option (List Char))
  | tokens (input : List Char)
  | check (inputs : List (List Char))

/-- The command of a name, with the inputs that it needs. -/
def Command.ofGiven (name : CommandName) (given : Given) : Except Halt Command :=
  match name, given.inputs with
  | _, [] => .error (.refused .missingInput)
  | .highlight, inputs => .ok (.highlight inputs given.format)
  | .tokens, input :: _ => .ok (.tokens input)
  | .check, inputs => .ok (.check inputs)

/-- A command line that has been read. -/
structure Invocation where
  command : Command
  verbose : Bool
  noColour : Bool
  config : Option (List Char)

namespace Invocation

abbrev Variables := String → Option (List Char)

/-- A flag of the environment. -/
def variableFlag (vars : Variables) (name : String) : Except Halt Bool :=
  match vars name with
  | none => .ok false
  | some value =>
    if value == "true".toList then .ok true
    else if value == "false".toList then .ok false
    else .error (.refused (.badVariable name))

/-- A flag counts if it is given on either side; the environment is asked for the side without. -/
def mergeFlag (vars : Variables) (name : String) (front behind : Bool) : Except Halt Bool :=
  if front && behind then .ok true
  else do return front || behind || (← variableFlag vars name)

/-- The path behind the command's name counts before the one in front of it. -/
def mergeConfig (vars : Variables) (front behind : Option (List Char)) :
    Except Halt (Option (List Char)) :=
  if front.isSome && behind.isSome then .ok behind
  else
    match vars "BOGLT_CONFIG" with
    | some [] => .error (.refused .emptyPath)
    | value => .ok ((behind.or front).or value)

/-- Reads a command line. -/
def read (vars : Variables) (arguments : List (List Char)) : Except Halt Invocation := do
  let (front, name, rest) ← readFront (.ok {}) none arguments
  let behind ← readBehind name {} none rest
  let front ← front
  let verbose ← mergeFlag vars "BOGLT_VERBOSE" front.verbose behind.verbose
  let noColour ← mergeFlag vars "BOGLT_NO_COLOR" front.noColour behind.noColour
  let config ← mergeConfig vars front.config behind.config
  return ⟨← Command.ofGiven name behind, verbose, noColour, config⟩

end Invocation

end BoardHighlight
